import FramedMessaging.Proofs.Channel.Reachable
set_option autoImplicit false

namespace FramedMessaging

open Operation

def Operation.brought {σ : Type} : EStateM.Result Stop σ (Option Bytes) → Bytes
  | .ok (some b) _ => b
  | _ => []

namespace Script

theorem length_bytes (s : Script) : s.bytes.length = s.remaining := by
  unfold bytes remaining
  induction s.steps with
  | nil => rfl
  | cons step rest ih => cases step <;> simp [ih, Step.bytes, Step.size]

theorem bytes_afterTaking (max : Nat) (data : Bytes) (rest : List Step) :
    (afterTaking max data rest).flatMap Step.bytes = data.drop max ++ rest.flatMap Step.bytes := by
  unfold afterTaking
  split
  · simp [*]
  · simp [Step.bytes]

def Delivery.data (d : Delivery) : Bytes :=
  match d.result with
  | .ok (some b) => b
  | _ => []

theorem bytes_deliver (max : Nat) (steps : List Step) (pulls : Nat) (h : CloseHandle) :
    steps.flatMap Step.bytes =
      (deliver max steps pulls h).data ++ (deliver max steps pulls h).steps.flatMap Step.bytes := by
  induction steps generalizing pulls h with
  | nil => by_cases hc : h.closed = true <;> simp [deliver, hc, Delivery.data]
  | cons step rest ih =>
    by_cases hc : h.closed = true
    · cases step <;> simp [deliver, hc, Delivery.data]
    · cases step with
      | idle => simpa [deliver, hc, Step.bytes] using ih (pulls + 1) h.wait
      | chunk data =>
        by_cases hd : data = []
        · simpa [deliver, hc, hd, Step.bytes] using ih (pulls + 1) h.wait
        · simp [deliver, hc, hd, Delivery.data, bytes_afterTaking, Step.bytes, ← List.append_assoc]

theorem closed_of_deliver_error {max : Nat} {steps : List Step} {pulls : Nat} {h : CloseHandle}
    {why : Stop} (he : (deliver max steps pulls h).result = .error why) :
    (deliver max steps pulls h).handle.closed = true := by
  induction steps generalizing pulls h with
  | nil => by_cases hc : h.closed = true <;> simp [deliver, hc] at he ⊢
  | cons step rest ih =>
    by_cases hc : h.closed = true
    · cases step <;> simp [deliver, hc]
    · cases step with
      | idle =>
        simp only [deliver, hc] at he ⊢
        exact ih he
      | chunk data =>
        by_cases hd : data = []
        · simp only [deliver, hc, hd] at he ⊢
          exact ih he
        · simp [deliver, hc, hd] at he

end Script

def Turn.bytes : Turn Bytes → Bytes
  | ready data => data
  | _ => []

def Awaited.data (call : Awaited Bytes) : Bytes :=
  match call.result with
  | .ok data => data
  | .error _ => []

def Reply.data (r : Reply Bytes) : Bytes :=
  match r.result with
  | .ok data => data
  | .error _ => []

theorem Turn.bytes_await (hangsAtEnd : Bool) (turns : List (Turn Bytes)) (h : CloseHandle) :
    let call := Turn.await true (if hangsAtEnd then none else some []) turns h
    turns.flatMap Turn.bytes = call.data ++ call.turns.flatMap Turn.bytes := by
  induction turns generalizing h with
  | nil => cases hangsAtEnd <;> rfl
  | cons turn rest ih =>
    cases turn with
    | ready data => rfl
    | fails e => rfl
    | yields =>
      by_cases hw : h.wait.closed = true
      · simp [await, hw, Awaited.data, Turn.bytes]
      · simpa [await, hw, Turn.bytes] using ih h.wait
    | hangs => rfl

namespace Transport

def bytes (t : Transport) : Bytes := t.readTurns.flatMap Turn.bytes

theorem length_bytes (t : Transport) : t.bytes.length = t.undelivered := by
  unfold bytes undelivered
  induction t.readTurns with
  | nil => rfl
  | cons turn rest ih => cases turn <;> simp [ih, Turn.bytes]

theorem bytes_read (t : Transport) (max : Nat) (h : CloseHandle) :
    t.bytes = (t.read max h).data ++ (t.read max h).transport.bytes := by
  have hcall := Turn.bytes_await t.hangsAtEnd t.readTurns h
  simp only [read, bytes, Reply.data, Awaited.data] at hcall ⊢
  rw [hcall]
  cases (Turn.await true (if t.hangsAtEnd then none else some []) t.readTurns h).result with
  | error why => rfl
  | ok data =>
    by_cases hd : data.drop max = []
    · have ht : data.take max = data := by simpa [hd] using List.take_append_drop max data
      simp [hd, ht]
    · simp [hd, Turn.bytes, ← List.append_assoc]

end Transport

namespace Channel

def stored (c : Channel) : Bytes :=
  match c.endpoint with
  | .scripted s => s.bytes
  | .transport t => t.bytes

theorem length_stored (c : Channel) : c.stored.length = c.undelivered := by
  unfold stored undelivered
  cases c.endpoint with
  | scripted s => exact s.length_bytes
  | transport t => exact t.length_bytes

theorem stored_await (most : Nat) (c : Channel) :
    c.stored = brought (await most c) ++ (final (await most c)).stored := by
  cases hp : c.endpoint with
  | scripted s =>
    have hs := Script.bytes_deliver (max most 1) s.steps s.pulls c.handle
    rcases await_scripted_cases hp most with ⟨data, hr, ha⟩ | ⟨why, hr, ha⟩ <;>
      rw [Script.Delivery.data, hr] at hs
    · cases data <;> simpa [stored, hp, ha, brought, afterDelivery, Script.bytes] using hs
    · simpa [stored, hp, ha, brought, afterDelivery, Script.bytes] using hs
  | transport t =>
    cases hc : c.handle.closed with
    | true => simp [await, hp, pull_closed hc, brought]
    | false =>
      have ht := t.bytes_read (max most 1) c.handle
      rcases await_transport_cases hc hp most with
        ⟨b, -, hr, ha⟩ | ⟨hr, ha⟩ | ⟨why, hr, ha⟩ <;>
        simpa [stored, hp, ha, brought, afterReply, Reply.data, hr] using ht

end Channel

namespace BufferedChannel

def stored (s : BufferedChannel) : Bytes := s.readAhead.bytes ++ s.channel.stored

theorem length_stored (s : BufferedChannel) : s.stored.length = s.available := by
  rw [stored, List.length_append, s.channel.length_stored]
  rfl

theorem stored_fetch (most : Nat) (s : BufferedChannel) :
    (final (fetch most s)).readAhead = s.readAhead ∧
      s.channel.stored = brought (fetch most s) ++ (final (fetch most s)).channel.stored := by
  unfold fetch
  cases s.atEnd with
  | true => exact ⟨rfl, rfl⟩
  | false =>
    have hc := s.channel.stored_await most
    simp only [onChannel, Bool.false_eq_true, if_false]
    rw [hc]
    cases Channel.await most s.channel with
    | error why c => exact ⟨rfl, rfl⟩
    | ok data c => cases data <;> exact ⟨rfl, rfl⟩

end BufferedChannel

end FramedMessaging
