import FramedMessaging.Proofs.Channel.HandleProgress
import FramedMessaging.Proofs.Channel.HeldBytes
import FramedMessaging.Proofs.Connection.Serving
import FramedMessaging.Proofs.Framing.Outcomes
set_option autoImplicit false

namespace FramedMessaging

open Operation

namespace Script

theorem flow_prefix (steps : List Step) (h : CloseHandle) :
    (flow steps h).bytes <+: steps.flatMap Step.bytes := by
  induction steps generalizing h with
  | nil => by_cases hc : h.closed = true <;> simp [flow, hc, Flow.closed]
  | cons step rest ih =>
    by_cases hc : h.closed = true
    · simp [flow_of_closed _ hc, Flow.closed]
    · cases step with
      | idle => simpa [flow, hc, Step.bytes] using ih h.wait
      | chunk data =>
        by_cases hd : data = []
        · simpa [flow, hc, hd, Step.bytes] using ih h.wait
        · simpa [flow, hc, hd, Step.bytes] using ih h

end Script

namespace Channel

def Scripted (c : Channel) : Prop := ∃ s, c.endpoint = .scripted s

variable {c : Channel}

theorem Scripted.push (h : c.Scripted) (data : Bytes) :
    Channel.push data c = .error (.failure .streamClosed) c ∨
      ∃ d, Channel.push data c = .ok () d ∧ d.Scripted ∧ d.steps = c.steps := by
  obtain ⟨script, hs⟩ := h
  have hsteps := steps_push data c
  obtain hp | ⟨s, -, hp⟩ | ⟨t, ht, -⟩ := push_cases data c
  · exact .inl hp
  · rw [hp, final_ok] at hsteps
    exact .inr ⟨_, hp, ⟨_, rfl⟩, hsteps⟩
  · rw [hs] at ht
    cases ht

theorem Scripted.flush (h : c.Scripted) :
    Channel.flush c = .error (.failure .streamClosed) c ∨ Channel.flush c = .ok () c := by
  obtain ⟨script, hs⟩ := h
  obtain hf | hf | ⟨t, ht, -⟩ := flush_cases c
  · exact .inl hf
  · exact .inr hf
  · rw [hs] at ht
    cases ht

theorem Scripted.shutdown (h : c.Scripted) :
    Channel.shutdown c = .error (.failure .streamClosed) c ∨
      Channel.shutdown c = .ok () { c with writeShut := true } := by
  obtain ⟨script, hs⟩ := h
  obtain ⟨-, hf⟩ | hf | ⟨t, ht, -⟩ := shutdown_cases c
  · exact .inl hf
  · exact .inr hf
  · rw [hs] at ht
    cases ht

end Channel

namespace BufferedChannel

open FramedMessaging.Flow

variable {s t : BufferedChannel} {held : Bytes}

/-- The bytes `held` belong to the content but not to the flow: they lie behind a close, or behind
an end that is remembered. -/
structure Withholds (held : Bytes) (s : BufferedChannel) : Prop where
  scripted : s.channel.Scripted
  steps : s.channel.steps.flatMap Step.bytes = s.beyond.bytes ++ held

theorem Withholds.content_eq (h : s.Withholds held) : s.content = s.flow.bytes ++ held := by
  rw [content, h.steps, bytes_flow, List.append_assoc]

theorem exists_withholds (scripted : s.channel.Scripted) : ∃ held, s.Withholds held := by
  obtain ⟨script, hs⟩ := scripted
  by_cases he : s.atEnd = true
  · exact ⟨s.channel.steps.flatMap Step.bytes, ⟨script, hs⟩, by simp [beyond, he]⟩
  · obtain ⟨held, hh⟩ := Script.flow_prefix script.steps s.channel.handle
    exact ⟨held, ⟨script, hs⟩, by simp [beyond, he, Channel.flow, Channel.steps, hs, hh]⟩

theorem length_content (scripted : s.channel.Scripted) : s.content.length = s.available := by
  obtain ⟨script, hs⟩ := scripted
  have hl := script.length_bytes
  rw [Script.bytes] at hl
  simp [content, available, Channel.steps, Channel.undelivered, hs, hl, Accumulator.size]

theorem settled_flow_of_scripted (scripted : s.channel.Scripted) : s.flow.finish.Settled := by
  obtain ⟨script, hs⟩ := scripted
  rw [finish_flow, beyond]
  split
  · trivial
  · rw [Channel.flow, hs]
    exact Script.settled_flow script.steps s.channel.handle

theorem withholds_fetch (most : Nat) (h : s.Withholds held) :
    (final (fetch most s)).Withholds held := by
  obtain ⟨⟨script, hs⟩, hsteps⟩ := h
  cases he : s.atEnd with
  | true => simpa [fetch, he] using ⟨⟨script, hs⟩, hsteps⟩
  | false =>
    have hm : 0 < max most 1 := by omega
    have hf := Script.deliver_flow hm script.steps script.pulls s.channel.handle
    have hb := Script.bytes_deliver (max most 1) script.steps script.pulls s.channel.handle
    simp only [beyond, he, Channel.flow, Channel.steps, hs, Bool.false_eq_true, if_false] at hsteps
    simp only [fetch, he, onChannel, Channel.await, hs, Bool.false_eq_true, if_false]
    cases hr : (Script.deliver (max most 1) script.steps script.pulls s.channel.handle).result with
    | error why =>
      simp only [hr, Script.Delivery.data, List.nil_append] at hf hb
      -- The handle was closed during the wait, so from here on the close hides all steps.
      refine ⟨⟨_, rfl⟩, ?_⟩
      rw [hf, hb] at hsteps
      simpa [beyond, he, Channel.flow, Channel.afterDelivery, Channel.steps,
        Script.flow_of_closed _ (Script.closed_of_deliver_error hr), closed] using hsteps
    | ok data =>
      cases data with
      | none =>
        simp only [hr, Script.Delivery.data, List.nil_append] at hf hb
        refine ⟨⟨_, rfl⟩, ?_⟩
        rw [hf, hb] at hsteps
        simpa [beyond, Channel.afterDelivery, Channel.steps] using hsteps
      | some b =>
        simp only [hr, Script.Delivery.data] at hf hb
        refine ⟨⟨_, rfl⟩, ?_⟩
        rw [hf.2.2, hb, bytes_behind, List.append_assoc, List.append_cancel_left_eq] at hsteps
        simpa [beyond, he, Channel.flow, Channel.afterDelivery, Channel.steps] using hsteps

theorem withholds_relation (held : Bytes) :
    ReadRelation fun s t => s.Withholds held → t.Withholds held where
  refl _ h := h
  trans hst htu h := htu (hst h)
  fetch most _ := withholds_fetch most
  readAhead _ _ h := ⟨h.scripted, h.steps⟩

/-- A read over a script never waits for ever. One that comes to a payload has taken at least one
byte off the front of the content, whether the payload converts or not. -/
theorem read_cases (scripted : s.channel.Scripted) (f : Framing) :
    (∃ body t, f.read s = lift ((f.codec.decode body).map some) t ∧ t.channel.Scripted ∧
      ∃ taken, taken ≠ [] ∧ s.content = taken ++ t.content) ∨
    (∃ t, f.read s = .ok none t ∧ t.channel.Scripted) ∨
    (∃ e t, f.read s = .error (.failure e) t ∧ e.endsConnection = true) := by
  obtain ⟨held, hs⟩ := exists_withholds scripted
  have ht := (withholds_relation held).read f s hs
  have hm := f.read_meets s
  have settled := f.cut_settled (settled_flow_of_scripted scripted)
  revert hm settled
  cases hc : f.cut s.flow with
  | payload body rest =>
    rintro ⟨t, hr, hf⟩ -
    obtain ⟨taken, ne, hb⟩ := Framing.append_of_cut hc
    rw [hr, final_lift] at ht
    refine .inl ⟨body, t, hr, ht.scripted, taken, ne, ?_⟩
    rw [hs.content_eq, ht.content_eq, hb, hf, List.append_assoc]
  | ended =>
    rintro ⟨t, hr, -⟩ -
    rw [hr, final_ok] at ht
    exact .inr (.inl ⟨t, hr, ht.scripted⟩)
  | stopped why =>
    rintro ⟨t, hr⟩ settled
    cases why with
    | stuck => exact settled.elim
    | failure e => exact .inr (.inr ⟨e, t, hr, settled⟩)

theorem write_cases (scripted : s.channel.Scripted) (f : Framing) (m : Message) :
    (∃ t, f.write m s = .ok () t ∧ t.channel.Scripted ∧ t.content = s.content) ∨
    (∃ e t, f.write m s = .error (.failure e) t) := by
  cases hf : f.encode m with
  | error e => exact .inr ⟨e, s, by rw [Framing.write, hf, bind_error (lift_error e s)]⟩
  | ok frame =>
    rw [Framing.write, hf, bind_ok (lift_ok frame s)]
    obtain hp | ⟨d, hp, hd, hsteps⟩ := scripted.push frame
    · have hw : BufferedChannel.write frame s = .error (.failure .streamClosed) s := by
        rw [BufferedChannel.write, onChannel, hp]
      exact .inr ⟨_, s, bind_error hw⟩
    · have hw : BufferedChannel.write frame s = .ok () { s with channel := d } := by
        rw [BufferedChannel.write, onChannel, hp]
      rw [bind_ok hw, BufferedChannel.flush, onChannel]
      obtain hf | hf := hd.flush
      · exact .inr ⟨_, _, by rw [hf]⟩
      · exact .inl ⟨_, by rw [hf], hd, by rw [content, content, hsteps]⟩

end BufferedChannel

end FramedMessaging
