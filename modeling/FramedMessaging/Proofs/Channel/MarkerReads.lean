import FramedMessaging.Proofs.Channel.HeldBytes
import FramedMessaging.Proofs.Channel.ReadAhead
import FramedMessaging.Proofs.Framing.ReadBounds
set_option autoImplicit false

namespace FramedMessaging

open Operation

def Bytes.FirstOccursAt (pattern b : Bytes) (p : Nat) : Prop :=
  OccursAt pattern b p ∧ ∀ k, k < p → ¬ OccursAt pattern b k

theorem Meets.outcome_eq {α : Type} {out : Bytes → Except Failure α} {finish : Finish} {c : Cut}
    {r r' : EStateM.Result Stop BufferedChannel (Option α)} (h : Meets out finish r c)
    (h' : Meets out finish r' c) : outcome r = outcome r' := by
  cases c with
  | payload b rest =>
    obtain ⟨t, rfl, -⟩ := h
    obtain ⟨t', rfl, -⟩ := h'
    cases out b <;> rfl
  | ended =>
    obtain ⟨t, rfl, -⟩ := h
    obtain ⟨t', rfl, -⟩ := h'
    rfl
  | stopped why =>
    obtain ⟨t, rfl⟩ := h
    obtain ⟨t', rfl⟩ := h'
    rfl

def Turn.isFault {α : Type} : Turn α → Bool
  | fails _ => true
  | _ => false

namespace Transport

/-- The transport without the next error of its reads. -/
def mended (t : Transport) : Transport := { t with readTurns := t.readTurns.eraseP Turn.isFault }

theorem await_mended (hangsAtEnd : Bool) (turns : List (Turn Bytes)) {h : CloseHandle}
    (hc : h.closed = false) :
    let call := Turn.await true (if hangsAtEnd then none else some []) turns h
    match call.result with
    | .ok data => data ≠ [] →
      flow hangsAtEnd (turns.eraseP Turn.isFault) h =
        (flow hangsAtEnd (call.turns.eraseP Turn.isFault) call.handle).behind data
    | .error why => call.handle.closed = false → why ≠ .stuck →
      flow hangsAtEnd (turns.eraseP Turn.isFault) h = flow hangsAtEnd call.turns call.handle := by
  induction turns generalizing h with
  | nil => cases hangsAtEnd <;> simp +contextual [Turn.await, Turn.endless]
  | cons turn rest ih =>
    cases turn with
    | ready data => simp +contextual [Turn.await, Turn.isFault, flow]
    | fails e => exact fun _ _ => rfl
    | yields =>
      by_cases hw : h.wait.closed = true
      · simp [Turn.await, hw]
      · simpa [Turn.await, Turn.isFault, flow, hw] using ih (by simpa using hw)
    | hangs => simp +contextual [Turn.await, Turn.endless]

theorem read_mended (t : Transport) (max : Nat) {h : CloseHandle} (hc : h.closed = false) :
    let r := t.read max h
    match r.result with
    | .ok data => data ≠ [] →
      flow t.hangsAtEnd t.mended.readTurns h =
        (flow r.transport.hangsAtEnd r.transport.mended.readTurns r.handle).behind data
    | .error why => r.handle.closed = false → why ≠ .stuck →
      flow t.hangsAtEnd t.mended.readTurns h =
        flow r.transport.hangsAtEnd r.transport.readTurns r.handle := by
  have h := await_mended t.hangsAtEnd t.readTurns hc
  revert h
  simp only [read, mended]
  generalize Turn.await true (if t.hangsAtEnd then none else some []) t.readTurns _ = call
  intro h
  cases hr : call.result with
  | error why => simpa [hr] using h
  | ok data =>
    simp only [hr] at h ⊢
    intro ne
    have hback := flow_putBack t.hangsAtEnd max data (call.turns.eraseP Turn.isFault) call.handle
    have hput : (if data.drop max = [] then call.turns
        else .ready (data.drop max) :: call.turns).eraseP Turn.isFault =
        if data.drop max = [] then call.turns.eraseP Turn.isFault
        else .ready (data.drop max) :: call.turns.eraseP Turn.isFault := by
      split <;> rfl
    rw [hput, hback]
    exact h fun hd => ne (by rw [hd, List.take_nil])

end Transport

namespace Channel

variable {c d : Channel} {most : Nat}

def mended (c : Channel) : Channel :=
  match c.endpoint with
  | .scripted _ => c
  | .transport t => { c with endpoint := .transport t.mended }

theorem flow_mended_of_await_ok {b : Bytes} (h : await most c = .ok (some b) d) :
    c.mended.flow = d.mended.flow.behind b := by
  cases hp : c.endpoint with
  | scripted s =>
    have hd := final_await_scripted hp most
    rcases c.await_cases most with ⟨b', d', ha, -, -, hf⟩ | ⟨d', ha, -⟩ | ⟨why, d', ha, -⟩ <;>
      rw [h] at ha <;> cases ha
    rw [h, final_ok] at hd
    rw [mended, mended, hp, hd]
    rw [hd] at hf
    exact hf
  | transport t =>
    cases hc : c.handle.closed with
    | true => simp [await, hp, pull_closed hc] at h
    | false =>
      have hm := t.read_mended (max most 1) hc
      have hr := t.read_flow (show 0 < max most 1 by omega) hc
      rcases await_transport_cases hc hp most with
        ⟨b', ne, hb, ha⟩ | ⟨-, ha⟩ | ⟨why, -, ha⟩ <;> rw [h] at ha <;> cases ha
      simp only [hb] at hm hr
      obtain ⟨x, more, rfl⟩ := List.exists_cons_of_ne_nil ne
      simpa [mended, flow, afterReply, hp, hc, hr.1, Transport.mended] using hm ne

theorem flow_mended_of_await_error {why : Stop} (h : await most c = .error why d)
    (opened : d.handle.closed = false) (moves : why ≠ .stuck) : c.mended.flow = d.flow := by
  cases hp : c.endpoint with
  | scripted s =>
    rcases await_scripted_cases hp most with ⟨data, -, ha⟩ | ⟨why', hr, ha⟩ <;>
      rw [h] at ha <;> cases ha
    cases (Script.closed_of_deliver_error hr).symm.trans opened
  | transport t =>
    cases hc : c.handle.closed with
    | true =>
      simp only [await, hp, pull_closed hc] at h
      cases h
      rw [hc] at opened
      cases opened
    | false =>
      have hm := t.read_mended (max most 1) hc
      rcases await_transport_cases hc hp most with
        ⟨b, -, -, ha⟩ | ⟨-, ha⟩ | ⟨why', hr, ha⟩ <;> rw [h] at ha <;> cases ha
      have hopen : (t.read (max most 1) c.handle).handle.closed = false := opened
      simp only [hr] at hm
      simpa [mended, flow, afterReply, hp, hc, hopen, Transport.mended] using hm opened moves

end Channel

namespace BufferedChannel

variable {s t u : BufferedChannel} {most : Nat}

def mended (s : BufferedChannel) : BufferedChannel := { s with channel := s.channel.mended }

theorem flow_mended_of_fetch_some {b : Bytes} (h : fetch most s = .ok (some b) t) :
    BufferedChannel.flow { t.mended with readAhead := t.readAhead.extend b } = s.mended.flow := by
  obtain ⟨he, hc, ht⟩ := of_fetch_some h
  have hm := Channel.flow_mended_of_await_ok hc
  rw [ht]
  exact flow_extend (t := BufferedChannel.mended { s with channel := t.channel }) rfl
    (by simpa [beyond, mended, he] using hm)

theorem flow_mended_of_fetch_error {why : Stop} (h : fetch most s = .error why t)
    (opened : t.channel.handle.closed = false) (moves : why ≠ .stuck) :
    t.flow = s.mended.flow := by
  obtain ⟨he, hc, ht⟩ := of_fetch_error h
  have hm := Channel.flow_mended_of_await_error hc opened moves
  rw [ht]
  simp [flow, beyond, mended, he, hm]

theorem ReadsOn.flow_mended_eq (h : ReadsOn s u) : u.mended.flow = s.mended.flow := by
  induction h with
  | refl s => rfl
  | fetched fetch more ih => exact ih.trans (flow_mended_of_fetch_some fetch)

open FramedMessaging.Flow

variable {marker : Bytes}

/-- What a read up to a marker comes to, by the bytes that are still to come. Where the marker does
not occur, the bytes before the last `marker.length - 1` ones count against the limit. -/
inductive Sought (marker : Bytes) (limit : Option Nat) (w : Flow) :
    Except Stop (Option Bytes) → Prop where
  | found {p : Nat} (first : Bytes.FirstOccursAt marker w.bytes p)
      (fits : ∀ max, limit = some max → p ≤ max) :
      Sought marker limit w (.ok (some (w.bytes.take p)))
  | tooFar {p max : Nat} (first : Bytes.FirstOccursAt marker w.bytes p) (bound : limit = some max)
      (exceeds : max < p) :
      Sought marker limit w (.error (.failure (.framing (.messageTooLarge max))))
  | tooMuch {max : Nat} (absent : ∀ p, ¬ Bytes.OccursAt marker w.bytes p)
      (bound : limit = some max) (exceeds : max < w.bytes.length - (marker.length - 1)) :
      Sought marker limit w (.error (.failure (.framing (.messageTooLarge max))))
  | nothing (empty : w.bytes = []) (ended : w.finish = .ended) : Sought marker limit w (.ok none)
  | unmarked (absent : ∀ p, ¬ Bytes.OccursAt marker w.bytes p)
      (fits : ∀ max, limit = some max → w.bytes.length - (marker.length - 1) ≤ max)
      (nonempty : w.bytes ≠ []) (ended : w.finish = .ended) :
      Sought marker limit w
        (.error (.failure (.framing (.endedBeforeMarker w.bytes.length))))
  | stopped {why : Stop} (absent : ∀ p, ¬ Bytes.OccursAt marker w.bytes p)
      (fits : ∀ max, limit = some max → w.bytes.length - (marker.length - 1) ≤ max)
      (stopped : w.finish = .stopped why) (own : why.OfChannel) :
      Sought marker limit w (.error why)

theorem sought_readUntil (ne : marker ≠ []) (limit : Option Nat) (s : BufferedChannel) :
    Sought marker limit s.flow (outcome (readUntil marker limit s)) := by
  have hm := readUntil_meets ne limit s
  have own := s.ofChannel_flow
  revert hm own
  generalize readUntil marker limit s = r
  generalize s.flow = w
  intro hm own
  rw [Cut.atMarker] at hm
  cases hf : w.bytes.find marker 0 with
  | some p =>
    obtain ⟨-, hp, hq⟩ := (Bytes.find_eq_some_iff ne).mp hf
    have first : Bytes.FirstOccursAt marker w.bytes p := ⟨hp, fun k => hq k (Nat.zero_le k)⟩
    rw [hf] at hm
    dsimp only at hm
    obtain ⟨hc, fits⟩ | ⟨max, bound, exceeds, hc⟩ := Cut.within_cases limit p
      (.payload (w.bytes.take p) (w.bytes.drop (p + marker.length))) <;> rw [hc] at hm
    · obtain ⟨t, rfl, -⟩ := hm
      exact .found first fits
    · obtain ⟨t, rfl⟩ := hm
      exact .tooFar first bound exceeds
  | none =>
    have absent : ∀ p, ¬ Bytes.OccursAt marker w.bytes p :=
      fun p => (Bytes.find_eq_none_iff ne).mp hf p (Nat.zero_le p)
    rw [hf] at hm
    dsimp only at hm
    obtain ⟨hc, fits⟩ | ⟨max, bound, exceeds, hc⟩ := Cut.within_cases limit
      (w.bytes.length - (marker.length - 1)) (w.short (if w.bytes = [] then .ended
        else .failed (.framing (.endedBeforeMarker w.bytes.length)))) <;> rw [hc] at hm
    · cases finish : w.finish with
      | stopped why =>
        rw [short_of_stopped finish] at hm
        obtain ⟨t, rfl⟩ := hm
        rw [finish] at own
        exact .stopped absent fits finish own
      | ended =>
        rw [short_of_ended finish] at hm
        by_cases hb : w.bytes = []
        · rw [if_pos hb] at hm
          obtain ⟨t, rfl, -⟩ := hm
          exact .nothing hb finish
        · rw [if_neg hb] at hm
          obtain ⟨t, rfl⟩ := hm
          exact .unmarked absent fits hb finish
    · obtain ⟨t, rfl⟩ := hm
      exact .tooMuch absent bound exceeds

theorem ReadsOn.stored_eq (h : ReadsOn s u) : u.stored = s.stored := by
  induction h with
  | refl s => rfl
  | @fetched s t u b fetch more ih =>
    obtain ⟨ha, hs⟩ := s.stored_fetch s.chunkSize
    rw [fetch, final_ok] at ha hs
    rw [ih, stored, stored, hs, ha]
    simp [Accumulator.extend, brought]

theorem stored_final_fetch (most : Nat) (s : BufferedChannel)
    (nothing : brought (fetch most s) = []) : (final (fetch most s)).stored = s.stored := by
  obtain ⟨ha, hs⟩ := s.stored_fetch most
  rw [stored, stored, hs, ha, nothing, List.nil_append]

theorem split_of_readUntil_ok (ne : marker ≠ []) {limit : Option Nat} {payload : Bytes}
    (h : readUntil marker limit s = .ok (some payload) t) :
    s.stored = payload ++ marker ++ t.stored ∧ s.flow = t.flow.behind (payload ++ marker) := by
  obtain ⟨u, reads, searched⟩ := searched_readUntil ne limit s
  rw [h] at searched
  rw [← reads.stored_eq, ← reads.flow_eq]
  cases searched with
  | found split => simp [stored, flow, beyond, ← split, behind_behind]

theorem stored_of_readUntil_error (ne : marker ≠ []) {limit : Option Nat} {why : Stop}
    (h : readUntil marker limit s = .error why t) : t.stored = s.stored := by
  obtain ⟨u, reads, searched⟩ := searched_readUntil ne limit s
  rw [h] at searched
  rw [← reads.stored_eq]
  cases searched with
  | tooLarge max => rfl
  | unmarked fetch buffered =>
    have hf := u.stored_final_fetch u.chunkSize (by rw [fetch]; rfl)
    rwa [fetch] at hf
  | stopped fetch =>
    have hf := u.stored_final_fetch u.chunkSize (by rw [fetch]; rfl)
    rwa [fetch] at hf
  | usedUp => rfl

theorem flow_of_readUntil_transportError (ne : marker ≠ []) {limit : Option Nat}
    {e : TransportError} (h : readUntil marker limit s = .error (.failure e.failure) t)
    (opened : t.channel.handle.closed = false) : t.flow = s.mended.flow := by
  obtain ⟨u, reads, searched⟩ := searched_readUntil ne limit s
  have own := e.ofChannel
  rw [h] at searched
  rw [← reads.flow_mended_eq]
  generalize e.failure = f at searched own
  cases searched with
  | tooLarge max => cases own
  | unmarked fetch buffered => cases own
  | stopped fetch => exact flow_mended_of_fetch_error fetch opened fun h => by cases h

/-- A read up to a marker comes to what the bytes still to come say. If it succeeds, the payload and
its marker are taken off the front. If it fails, all bytes stay in store; where the transport failed
and the stream stays open, what is to come, and so a repeated read, is as it would be without that
failure. -/
theorem readUntil_sought (ne : marker ≠ []) (limit : Option Nat) (s : BufferedChannel) :
    Sought marker limit s.flow (outcome (readUntil marker limit s)) ∧
    (∀ payload t, readUntil marker limit s = .ok (some payload) t →
      s.stored = payload ++ marker ++ t.stored ∧ s.flow = t.flow.behind (payload ++ marker)) ∧
    (∀ why t, readUntil marker limit s = .error why t →
      t.stored = s.stored ∧
      ∀ e : TransportError, why = .failure e.failure → t.channel.handle.closed = false →
        t.flow = s.mended.flow ∧
        outcome (readUntil marker limit t) = outcome (readUntil marker limit s.mended)) := by
  refine ⟨sought_readUntil ne limit s, fun payload t h => split_of_readUntil_ok ne h,
    fun why t h => ⟨stored_of_readUntil_error ne h, ?_⟩⟩
  rintro e rfl opened
  have hf := flow_of_readUntil_transportError ne h opened
  have hm := readUntil_meets ne limit s.mended
  rw [← hf] at hm
  exact ⟨hf, (readUntil_meets ne limit t).outcome_eq hm⟩

/-- The marker overlaps with itself, its first byte is read ahead, and the error comes within it. -/
theorem readUntil_sought_past_error :
    let s := handBack [7, 1] (ofChannel (.ofTransport
      ⟨[.ready [1], .fails ⟨.timedOut, "late"⟩, .yields, .ready [1, 2, 8]], false, [], [], [], [],
        0, 0⟩) 2)
    ∃ t, readUntil [1, 1, 2] (some 2) s = .error (.failure (.io "late")) t ∧
      t.stored = [7, 1, 1, 1, 2, 8] ∧
      outcome (readUntil [1, 1, 2] (some 2) t) = .ok (some [7, 1]) := by
  intro s
  have ne : ([1, 1, 2] : Bytes) ≠ [] := by decide
  have hr : ∃ t, readUntil [1, 1, 2] (some 2) s = .error (.failure (.io "late")) t ∧
      t.channel.handle.closed = false := ⟨_, rfl, rfl⟩
  obtain ⟨t, h, opened⟩ := hr
  obtain ⟨-, -, failed⟩ := readUntil_sought ne (some 2) s
  obtain ⟨hs, mends⟩ := failed _ t h
  obtain ⟨-, again⟩ := mends ⟨.timedOut, "late"⟩ rfl opened
  exact ⟨t, h, hs, again.trans (by decide +kernel)⟩

end BufferedChannel

end FramedMessaging
