import FramedMessaging.Channel.Buffered
import FramedMessaging.Proofs.Operation
set_option autoImplicit false

namespace FramedMessaging

open Operation

theorem Script.deliver_closed {h : CloseHandle} (closed : h.closed = true) (max : Nat)
    (steps : List Step) (pulls : Nat) :
    deliver max steps pulls h = ⟨.error (.failure .streamClosed), steps, pulls, h⟩ := by
  cases steps with
  | nil => exact if_pos closed
  | cons step rest => cases step <;> exact if_pos closed

namespace Channel

variable {α : Type} {c d : Channel} {t : Transport}

theorem whenOpen_closed (closed : c.handle.closed = true) (op : Operation Channel α) :
    whenOpen op c = .error (.failure .streamClosed) c := if_pos closed

section

variable (closed : c.handle.closed = true)

include closed

theorem pull_closed (most : Nat) : pull most c = .error (.failure .streamClosed) c :=
  whenOpen_closed closed _

theorem push_closed (data : Bytes) : push data c = .error (.failure .streamClosed) c :=
  whenOpen_closed closed _

theorem flush_closed : flush c = .error (.failure .streamClosed) c := whenOpen_closed closed _

theorem shutdown_closed : shutdown c = .error (.failure .streamClosed) c :=
  whenOpen_closed closed _

theorem await_closed (most : Nat) :
    await most c = .error (.failure .streamClosed) c := by
  cases hp : c.endpoint with
  | scripted s =>
    simp only [await, hp, Script.deliver_closed closed, afterDelivery]
    rw [← hp]
  | transport t =>
    simp only [await, hp, pull_closed closed]

end

@[simp] theorem final_ofReply (c : Channel) (r : Reply α) :
    final (c.ofReply r) = c.afterReply r := by
  unfold ofReply
  cases r.result <;> rfl

theorem result_of_ofReply {r : Reply α} {why : Stop} (h : c.ofReply r = .error why d) :
    r.result = .error why := by
  unfold ofReply at h
  cases hr : r.result with
  | ok a => simp [hr] at h
  | error e =>
    simp only [hr, EStateM.Result.error.injEq] at h
    rw [h.1]

theorem result_of_ofReply_ok {r : Reply α} {a : α} (h : c.ofReply r = .ok a d) :
    r.result = .ok a := by
  unfold ofReply at h
  cases hr : r.result with
  | ok b =>
    simp only [hr, EStateM.Result.ok.injEq] at h
    rw [h.1]
  | error e => simp [hr] at h

theorem ofReply_of_result {r : Reply α} {a : α} (h : r.result = .ok a) :
    c.ofReply r = .ok a (c.afterReply r) := by
  rw [ofReply, h]

theorem final_pull_transport (opened : c.handle.closed = false)
    (transport : c.endpoint = .transport t) (most : Nat) :
    final (pull most c) = c.afterReply (t.read (max most 1) c.handle) := by
  rw [← final_ofReply]
  simp only [pull, whenOpen, opened, transport, Bool.false_eq_true, if_false]
  cases c.ofReply (t.read (max most 1) c.handle) with
  | error e d => rfl
  | ok data d => cases data <;> rfl

theorem final_await_scripted {s : Script} (scripted : c.endpoint = .scripted s) (most : Nat) :
    final (await most c) =
      c.afterDelivery s (Script.deliver (max most 1) s.steps s.pulls c.handle) := by
  simp only [await, scripted]
  cases (Script.deliver (max most 1) s.steps s.pulls c.handle).result <;> rfl

theorem final_await_transport (transport : c.endpoint = .transport t) (most : Nat) :
    final (await most c) = final (pull most c) := by
  simp only [await, transport]
  cases pull most c with
  | error e d => rfl
  | ok p d => cases p <;> rfl

theorem await_scripted_cases {s : Script} (scripted : c.endpoint = .scripted s) (most : Nat) :
    let d := Script.deliver (max most 1) s.steps s.pulls c.handle
    (∃ data, d.result = .ok data ∧ await most c = .ok data (c.afterDelivery s d)) ∨
    (∃ why, d.result = .error why ∧ await most c = .error why (c.afterDelivery s d)) := by
  simp only [await, scripted]
  cases (Script.deliver (max most 1) s.steps s.pulls c.handle).result with
  | error why => exact .inr ⟨why, rfl, rfl⟩
  | ok data => exact .inl ⟨data, rfl, rfl⟩

theorem await_transport_cases (opened : c.handle.closed = false)
    (transport : c.endpoint = .transport t) (most : Nat) :
    let r := t.read (max most 1) c.handle
    (∃ b, b ≠ [] ∧ r.result = .ok b ∧ await most c = .ok (some b) (c.afterReply r)) ∨
    (r.result = .ok [] ∧ await most c = .ok none (c.afterReply r)) ∨
    (∃ why, r.result = .error why ∧ await most c = .error why (c.afterReply r)) := by
  simp only [await, pull, whenOpen, ofReply, transport, opened, Bool.false_eq_true, if_false]
  cases (t.read (max most 1) c.handle).result with
  | error why => exact .inr (.inr ⟨why, rfl, rfl⟩)
  | ok data =>
    cases data with
    | nil => exact .inr (.inl ⟨rfl, rfl⟩)
    | cons b more => exact .inl ⟨b :: more, List.cons_ne_nil b more, rfl, rfl⟩

theorem shutdown_transport (opened : c.handle.closed = false)
    (transport : c.endpoint = .transport t) (unshut : c.writeShut = false) :
    shutdown c = { c with writeShut := true }.ofReply (t.shutdown c.handle) := by
  simp [shutdown, whenOpen, opened, unshut, transport]

theorem shutdown_shut (opened : c.handle.closed = false) (shut : c.writeShut = true) :
    shutdown c = .ok () c := by
  obtain ⟨endpoint, handle, _⟩ := c
  subst shut
  cases endpoint <;> simpa [shutdown, whenOpen] using opened

theorem push_shut (shut : c.writeShut = true) (data : Bytes) :
    push data c = .error (.failure .streamClosed) c := by
  simp [push, whenOpen, shut]

theorem push_cases (data : Bytes) (c : Channel) :
    push data c = .error (.failure .streamClosed) c ∨
    (∃ s, c.endpoint = .scripted s ∧
      push data c =
        .ok () { c with endpoint := .scripted { s with written := s.written ++ data } }) ∨
    (∃ t, c.endpoint = .transport t ∧ push data c = c.ofReply (t.write data c.handle)) := by
  cases hc : c.handle.closed with
  | true => exact .inl (push_closed hc data)
  | false =>
    cases hs : c.writeShut with
    | true => exact .inl (push_shut hs data)
    | false =>
      cases hp : c.endpoint with
      | scripted s => exact .inr (.inl ⟨s, rfl, by simp [push, whenOpen, hc, hs, hp]⟩)
      | transport t => exact .inr (.inr ⟨t, rfl, by simp [push, whenOpen, hc, hs, hp]⟩)

theorem flush_cases (c : Channel) :
    flush c = .error (.failure .streamClosed) c ∨ flush c = .ok () c ∨
    (∃ t, c.endpoint = .transport t ∧ flush c = c.ofReply (t.flush c.handle)) := by
  cases hc : c.handle.closed with
  | true => exact .inl (flush_closed hc)
  | false =>
    cases hp : c.endpoint with
    | scripted s => exact .inr (.inl (by simp [flush, whenOpen, hc, hp]))
    | transport t => exact .inr (.inr ⟨t, rfl, by simp [flush, whenOpen, hc, hp]⟩)

/-- A transport is told of a shutdown only where the channel is open and not shut yet. -/
theorem shutdown_cases (c : Channel) :
    (c.handle.closed = true ∧ shutdown c = .error (.failure .streamClosed) c) ∨
    shutdown c = .ok () { c with writeShut := true } ∨
    (∃ t, c.endpoint = .transport t ∧ c.writeShut = false ∧
      shutdown c = { c with writeShut := true }.ofReply (t.shutdown c.handle)) := by
  cases hc : c.handle.closed with
  | true => exact .inl ⟨rfl, shutdown_closed hc⟩
  | false =>
    cases hs : c.writeShut with
    | true =>
      obtain ⟨endpoint, handle, _⟩ := c
      subst hs
      exact .inr (.inl (shutdown_shut hc rfl))
    | false =>
      cases hp : c.endpoint with
      | scripted s => exact .inr (.inl (by simp [shutdown, whenOpen, hc, hp]))
      | transport t => exact .inr (.inr ⟨t, rfl, rfl, shutdown_transport hc hp hs⟩)

theorem final_pull_cases (most : Nat) (c : Channel) :
    final (pull most c) = c ∨
    (∃ s, c.endpoint = .scripted s ∧
      final (pull most c) = { c with endpoint := .scripted (s.pull (max most 1)).2 }) ∨
    (∃ t, c.endpoint = .transport t ∧
      final (pull most c) = c.afterReply (t.read (max most 1) c.handle)) := by
  cases hc : c.handle.closed with
  | true => exact .inl (by rw [pull_closed hc, final_error])
  | false =>
    cases hp : c.endpoint with
    | scripted s => exact .inr (.inl ⟨s, rfl, by simp [pull, whenOpen, hc, hp]⟩)
    | transport t => exact .inr (.inr ⟨t, rfl, final_pull_transport hc hp most⟩)

end Channel

namespace BufferedChannel

variable {α : Type} {op : Operation Channel α} {s t : BufferedChannel}

theorem final_onChannel (op : Operation Channel α) (s : BufferedChannel) :
    final (onChannel op s) = { s with channel := final (op s.channel) } := by
  unfold onChannel
  cases op s.channel <;> rfl

theorem of_onChannel_ok {a : α} (h : onChannel op s = .ok a t) :
    op s.channel = .ok a t.channel := by
  unfold onChannel at h
  cases hs : op s.channel with
  | ok b c =>
    rw [hs] at h
    cases h
    rfl
  | error e c => simp [hs] at h

theorem of_onChannel_error {why : Stop} (h : onChannel op s = .error why t) :
    op s.channel = .error why t.channel := by
  unfold onChannel at h
  cases hs : op s.channel with
  | ok a c => simp [hs] at h
  | error e c =>
    rw [hs] at h
    cases h
    rfl

end BufferedChannel

end FramedMessaging
