import FramedMessaging.Proofs.Framing.Delivery
import Mathlib.Data.List.Forall2
import Mathlib.Order.Bounds.Defs
set_option autoImplicit false

namespace FramedMessaging

open Operation BufferedChannel

def framesWithin : List Bytes → Nat → Nat
  | [], _ => 0
  | frame :: frames, k =>
    if frame.length ≤ k then framesWithin frames (k - frame.length) + 1 else 0

theorem framesWithin_isGreatest (frames : List Bytes) (k : Nat) :
    IsGreatest {j | j ≤ frames.length ∧ (frames.take j).flatten.length ≤ k}
      (framesWithin frames k) := by
  induction frames generalizing k with
  | nil => exact ⟨⟨Nat.zero_le _, Nat.zero_le k⟩, fun j hj => hj.1⟩
  | cons frame frames ih =>
    rw [framesWithin]
    by_cases hk : frame.length ≤ k
    · obtain ⟨⟨hle, hlen⟩, hmax⟩ := ih (k - frame.length)
      rw [if_pos hk]
      constructor
      · refine ⟨Nat.succ_le_succ hle, ?_⟩
        simp only [List.take_succ_cons, List.flatten_cons, List.length_append]
        omega
      · intro j ⟨hj, hjk⟩
        cases j with
        | zero => omega
        | succ j =>
          rw [List.take_succ_cons, List.flatten_cons, List.length_append] at hjk
          exact Nat.succ_le_succ (hmax ⟨Nat.le_of_succ_le_succ hj, by omega⟩)
    · rw [if_neg hk]
      constructor
      · exact ⟨Nat.zero_le _, Nat.zero_le k⟩
      · intro j ⟨hj, hjk⟩
        cases j with
        | zero => omega
        | succ j =>
          rw [List.take_succ_cons, List.flatten_cons, List.length_append] at hjk
          omega

namespace Framing

def Carries (f : Framing) (m : Message) (frame : Bytes) : Prop :=
  f.encode m = .ok frame ∧
    ∃ body, f.codec.encode m = .ok body ∧ f.codec.decode body = .ok m ∧ f.Admits body

theorem read_carried {f : Framing} (delimited : f.Delimited) {m : Message} {frame rest : Bytes}
    (carries : f.Carries m frame) {s : BufferedChannel} (bytes : s.flow.bytes = frame ++ rest) :
    ∃ t, f.read s = .ok (some m) t ∧ t.flow = ⟨rest, s.flow.finish⟩ := by
  obtain ⟨framed, body, payload, decodes, admits⟩ := carries
  have enclosed := enclose_of_encode payload framed
  obtain ⟨t, hr, ht⟩ := read_enclosed delimited admits enclosed bytes
  rw [decodes] at hr
  exact ⟨t, hr, ht⟩

theorem reads_of_cut_ended {f : Framing} {s : BufferedChannel} (h : f.cut s.flow = .ended)
    (n : Nat) : f.reads n s = [.ok none].take n := by
  have hm := f.read_meets s
  rw [h] at hm
  obtain ⟨t, hr, -⟩ := hm
  cases n with
  | zero => rfl
  | succ n => simp [reads, hr]

theorem reads_of_cut_isFault {f : Framing} {s : BufferedChannel} (h : (f.cut s.flow).IsFault) :
    ∃ fault, ∀ n, f.reads n s = [.error (.failure (.framing fault))].take n := by
  have hm := f.read_meets s
  obtain ⟨fault, hc⟩ := h
  rw [hc] at hm
  obtain ⟨t, hr⟩ := hm
  refine ⟨fault, fun n => ?_⟩
  cases n with
  | zero => rfl
  | succ n => simp [reads, hr, Stop.endsReading, Failure.endsConnection]

def LastRead (atEnd : Prop) (last : Except Stop (Option Message)) : Prop :=
  (atEnd ∧ last = .ok none) ∨ (¬ atEnd ∧ ∃ fault, last = .error (.failure (.framing fault)))

theorem reads_of_flow_take {f : Framing} (delimited : f.Delimited) {ms : List Message}
    {frames : List Bytes} (carried : List.Forall₂ f.Carries ms frames) {k : Nat}
    (le : k ≤ frames.flatten.length) {s : BufferedChannel}
    (hs : s.flow = ⟨frames.flatten.take k, .ended⟩) :
    ∃ last, LastRead ((frames.take (framesWithin frames k)).flatten.length = k) last ∧
      ∀ n, f.reads n s =
        ((ms.take (framesWithin frames k)).map (fun m => Except.ok (some m)) ++ [last]).take n := by
  induction carried generalizing k s with
  | nil =>
    have hk : k = 0 := by simpa using le
    have hc : f.cut s.flow = .ended := by
      rw [hs, hk, List.take_zero, f.cut_nil]
    exact ⟨.ok none, .inl ⟨by simp [hk], rfl⟩, reads_of_cut_ended hc⟩
  | @cons m frame ms frames carries carried ih =>
    rw [List.flatten_cons] at hs le
    by_cases hk : frame.length ≤ k
    -- One read takes the first frame; what it leaves is cut `frame.length` bytes earlier.
    · have hb : s.flow.bytes = frame ++ frames.flatten.take (k - frame.length) := by
        rw [hs, List.take_append, List.take_of_length_le hk]
      obtain ⟨t, hr, ht⟩ := read_carried delimited carries hb
      have hle : k - frame.length ≤ frames.flatten.length := by
        rw [List.length_append] at le
        omega
      rw [hs] at ht
      obtain ⟨last, hlast, hn⟩ := ih hle ht
      have hw : framesWithin (frame :: frames) k =
          framesWithin frames (k - frame.length) + 1 := by rw [framesWithin, if_pos hk]
      refine ⟨last, ?_, fun n => ?_⟩
      · simp only [hw, List.take_succ_cons, List.flatten_cons, List.length_append]
        have hiff (x : Nat) : frame.length + x = k ↔ x = k - frame.length := by omega
        simpa only [hiff] using hlast
      · cases n with
        | zero => rfl
        | succ n => simp [reads, hr, hn, hw]
    · have hw : framesWithin (frame :: frames) k = 0 := by rw [framesWithin, if_neg hk]
      have hb : s.flow = ⟨frame.take k, .ended⟩ := by
        rw [hs, List.take_append_of_le_length (by omega)]
      by_cases h0 : k = 0
      · have hc : f.cut s.flow = .ended := by
          rw [hb, h0, List.take_zero, f.cut_nil]
        refine ⟨.ok none, .inl ⟨by rw [hw, h0]; rfl, rfl⟩, fun n => ?_⟩
        simpa [hw] using reads_of_cut_ended hc n
      · obtain ⟨framed, body, payload, -, -⟩ := carries
        have enclosed := enclose_of_encode payload framed
        have hc := cut_part delimited enclosed (Nat.pos_of_ne_zero h0) (Nat.lt_of_not_le hk)
        rw [← hb] at hc
        obtain ⟨fault, hf⟩ := reads_of_cut_isFault hc
        refine ⟨_, .inr ⟨?_, fault, rfl⟩, fun n => ?_⟩
        · simpa [hw] using Ne.symm h0
        · simpa [hw] using hf n

/-- Of frames that are cut off after `k` bytes the whole ones are read as they were sent. What is
left then is a clean end or a fault. -/
theorem reads_truncated {f : Framing} (delimited : f.Delimited) {ms : List Message}
    {frames : List Bytes} (carried : List.Forall₂ f.Carries ms frames) {k : Nat}
    (le : k ≤ frames.flatten.length) {s : BufferedChannel}
    (hs : s.Delivers (frames.flatten.take k) .ended) :
    ∃ j last,
      IsGreatest {j | j ≤ frames.length ∧ (frames.take j).flatten.length ≤ k} j ∧
      LastRead ((frames.take j).flatten.length = k) last ∧
      ∀ n, f.reads n s = ((ms.take j).map (fun m => Except.ok (some m)) ++ [last]).take n := by
  obtain ⟨last, hlast, hn⟩ := reads_of_flow_take delimited carried le hs.flow_eq
  exact ⟨framesWithin frames k, last, framesWithin_isGreatest frames k, hlast, hn⟩

/-- The stream breaks off between the second token and the frame behind it. -/
theorem reads_truncated_behind_token :
    ∃ j last,
      IsGreatest {j | j ≤ 2 ∧
        (([[7, 0, 1, 104], [7, 0, 1, 105]] : List Bytes).take j).flatten.length ≤ 5} j ∧
      LastRead ((([[7, 0, 1, 104], [7, 0, 1, 105]] : List Bytes).take j).flatten.length = 5)
        last ∧
      ∀ n,
        (negotiated [7] (by decide) (.lengthPrefixed ⟨⟨.two, .big⟩, 9, .raw⟩)).reads n
            (handBack [7, 0] (ofChannel (.ofScript ⟨[.idle, .chunk [1, 104, 7]], 0, []⟩) 1)) =
          (([Message.bytes [104], .bytes [105]].take j).map (fun m => Except.ok (some m)) ++
            [last]).take n := by
  have hc := CloseHandle.staysOpen_of_unused
  have hs := BufferedChannel.Delivers.handedBack
    (.scripted ⟨[.idle, .chunk [1, 104, 7]], 0, []⟩ hc false) [7, 0] 1
  have carried : List.Forall₂
      (negotiated [7] (by decide) (.lengthPrefixed ⟨⟨.two, .big⟩, 9, .raw⟩)).Carries
      [.bytes [104], .bytes [105]] [[7, 0, 1, 104], [7, 0, 1, 105]] :=
    .cons ⟨rfl, [104], rfl, rfl, trivial⟩ (.cons ⟨rfl, [105], rfl, rfl, trivial⟩ .nil)
  have delimited :
      (negotiated [7] (by decide) (.lengthPrefixed ⟨⟨.two, .big⟩, 9, .raw⟩)).Delimited := trivial
  exact reads_truncated delimited carried (show 5 ≤ 8 by decide) hs

end Framing

end FramedMessaging
