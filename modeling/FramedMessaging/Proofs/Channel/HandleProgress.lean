import FramedMessaging.Proofs.Channel.Calls
import FramedMessaging.Proofs.Framing.Delivery
import FramedMessaging.Proofs.Framing.WriteFailure
set_option autoImplicit false

namespace FramedMessaging

open Operation BufferedChannel

namespace CloseHandle

inductive Onward : CloseHandle → CloseHandle → Prop where
  | same (h : CloseHandle) : Onward h h
  | counted (closed : Bool) {m n : Nat} (le : m ≤ n) :
      Onward ⟨closed, .afterWaits n⟩ ⟨closed, .afterWaits m⟩
  | closed (h : CloseHandle) {h' : CloseHandle} (closed : h'.closed = true) : Onward h h'

variable {h h' h'' : CloseHandle}

theorem Onward.stays_closed (on : Onward h h') (closed : h.closed = true) : h'.closed = true := by
  cases on with
  | same => exact closed
  | counted => exact closed
  | closed _ closed => exact closed

theorem Onward.trans (on : Onward h h') (on' : Onward h' h'') : Onward h h'' := by
  cases on' with
  | same => exact on
  | closed _ closed => exact .closed h closed
  | @counted flag m n le =>
    cases on with
    | same => exact .counted flag le
    | counted _ le' => exact .counted flag (Nat.le_trans le le')
    | closed _ closed => exact .closed h closed

theorem onward_wait (h : CloseHandle) : Onward h h.wait := by
  obtain ⟨flag, closer⟩ := h
  cases closer with
  | never => exact .same _
  | whenStuck => exact .same _
  | afterWaits n =>
    cases n with
    | zero => exact .closed _ rfl
    | succ n => exact .counted flag (Nat.le_succ n)

theorem onward_stall (h : CloseHandle) : Onward h h.stall := by
  obtain ⟨flag, closer⟩ := h
  cases closer with
  | never => exact .same _
  | whenStuck => exact .closed _ rfl
  | afterWaits n => exact .closed _ rfl

theorem Onward.wait (on : Onward h h') : Onward h.wait h'.wait := by
  cases on with
  | same => exact .same _
  | closed _ closed => exact .closed _ ((onward_wait h').stays_closed closed)
  | @counted flag m n le =>
    cases m with
    | zero => exact .closed _ rfl
    | succ m =>
      obtain ⟨n, rfl⟩ : ∃ k, n = k + 1 := ⟨n - 1, by omega⟩
      exact .counted flag (Nat.le_of_succ_le_succ le)

/-- The handle is closed, or another task will close it, at the latest once a wait has no end. -/
def Attended (h : CloseHandle) : Prop := h.closed = true ∨ h.closer ≠ .never

theorem Onward.attended (on : Onward h h') (attended : h.Attended) : h'.Attended := by
  cases on with
  | same => exact attended
  | counted flag le => exact .inr (fun h => by cases h)
  | closed _ closed => exact .inl closed

theorem Attended.closed_stall (attended : h.Attended) : h.stall.closed = true := by
  obtain ⟨flag, closer⟩ := h
  cases closer with
  | never => exact attended.resolve_right (fun ne => ne rfl)
  | whenStuck => rfl
  | afterWaits n => rfl

theorem Attended.endless_eq (attended : h.Attended) :
    Turn.endless true h.stall = .failure .streamClosed := by
  simp [Turn.endless, attended.closed_stall]

theorem Attended.settled_halted (attended : h.Attended) :
    (Flow.halted (Turn.endless true h.stall)).finish.Settled := by
  rw [attended.endless_eq]
  rfl

end CloseHandle

open CloseHandle

namespace Turn

variable {α : Type}

theorem onward_await (raced : Bool) (otherwise : Option α) (turns : List (Turn α))
    (h : CloseHandle) : h.Onward (await raced otherwise turns h).handle := by
  induction turns generalizing h with
  | nil =>
    cases otherwise with
    | none => exact onward_stall h
    | some a => exact .same h
  | cons turn rest ih =>
    cases turn with
    | ready a => exact .same h
    | fails e => exact .same h
    | hangs => exact onward_stall h
    | yields =>
      rw [await]
      split
      · exact onward_wait h
      · exact (onward_wait h).trans (ih h.wait)

theorem await_ne_stuck (otherwise : Option α) (turns : List (Turn α)) {h : CloseHandle}
    (attended : h.Attended) : (await true otherwise turns h).result ≠ .error .stuck := by
  induction turns generalizing h with
  | nil =>
    cases otherwise with
    | none => simp [await, attended.endless_eq]
    | some a => simp [await]
  | cons turn rest ih =>
    cases turn with
    | ready a => simp [await]
    | fails e => simp [await]
    | hangs => simp [await, attended.endless_eq]
    | yields =>
      rw [await]
      split
      · simp
      · exact ih ((onward_wait h).attended attended)

end Turn

namespace Transport

theorem onward_writeAll (turns : List (Turn Nat)) (data written : Bytes) (h : CloseHandle) :
    h.Onward (writeAll turns data written h).handle := by
  fun_induction writeAll turns data written h with
  | case1 | case2 | case3 | case6 => exact .same _
  | case4 n rest data written h hd hn ih => exact ih
  | case5 e rest data written h hd he ih => exact ih
  | case7 rest data written h hd hc => exact onward_wait h
  | case8 rest data written h hd hc ih => exact (onward_wait h).trans ih
  | case9 => exact onward_stall _

theorem writeAll_ne_stuck (turns : List (Turn Nat)) (data written : Bytes) {h : CloseHandle}
    (attended : h.Attended) : (writeAll turns data written h).result ≠ .error .stuck := by
  fun_induction writeAll turns data written h with
  | case1 | case2 | case3 | case6 | case7 => simp
  | case4 n rest data written h hd hn ih => exact ih attended
  | case5 e rest data written h hd he ih => exact ih attended
  | case8 rest data written h hd hc ih => exact ih ((onward_wait h).attended attended)
  | case9 => simp [attended.endless_eq]

theorem onward_read (t : Transport) (max : Nat) (h : CloseHandle) :
    h.Onward (t.read max h).handle := by
  rw [read]
  dsimp only
  split <;> exact Turn.onward_await _ _ _ _

theorem flow_onward (hangsAtEnd : Bool) (turns : List (Turn Bytes)) {h h' : CloseHandle}
    (on : h.Onward h') :
    (flow hangsAtEnd turns h').bytes <+: (flow hangsAtEnd turns h).bytes := by
  induction turns generalizing h h' with
  | nil => cases hangsAtEnd <;> exact List.nil_prefix
  | cons turn rest ih =>
    cases turn with
    | fails e => exact List.nil_prefix
    | hangs => exact List.nil_prefix
    | ready data =>
      by_cases hd : data = []
      · simp [flow, hd]
      · simpa [flow, hd] using ih on
    | yields =>
      cases hc : h'.wait.closed with
      | true => simp [flow, hc, Flow.closed]
      | false =>
        have ho : ¬ h.wait.closed = true := fun closed => by
          simp [on.wait.stays_closed closed] at hc
        simpa [flow, hc, ho] using ih on.wait

theorem settled_flow (hangsAtEnd : Bool) (turns : List (Turn Bytes)) {h : CloseHandle}
    (attended : h.Attended) : (flow hangsAtEnd turns h).finish.Settled := by
  induction turns generalizing h with
  | nil =>
    cases hangsAtEnd with
    | false => trivial
    | true => exact attended.settled_halted
  | cons turn rest ih =>
    cases turn with
    | fails e => exact e.endsConnection
    | hangs => exact attended.settled_halted
    | ready data =>
      by_cases hd : data = []
      · simp [flow, hd, Finish.Settled]
      · simpa [flow, hd] using ih attended
    | yields =>
      rw [flow]
      split
      · rfl
      · exact ih ((onward_wait h).attended attended)

end Transport

namespace Script

theorem onward_deliver (max : Nat) (steps : List Step) (pulls : Nat) (h : CloseHandle) :
    h.Onward (deliver max steps pulls h).handle := by
  induction steps generalizing pulls h with
  | nil =>
    rw [deliver]
    split <;> exact .same h
  | cons step rest ih =>
    cases step with
    | idle =>
      rw [deliver]
      split
      · exact .same h
      · exact (onward_wait h).trans (ih (pulls + 1) h.wait)
    | chunk data =>
      rw [deliver]
      split
      · exact .same h
      · split
        · exact (onward_wait h).trans (ih (pulls + 1) h.wait)
        · exact .same h

theorem settled_flow (steps : List Step) (h : CloseHandle) : (flow steps h).finish.Settled := by
  induction steps generalizing h with
  | nil =>
    rw [flow]
    split
    · rfl
    · trivial
  | cons step rest ih =>
    cases step with
    | idle =>
      rw [flow]
      split
      · rfl
      · exact ih h.wait
    | chunk data =>
      rw [flow]
      split
      · rfl
      · split
        · exact ih h.wait
        · exact ih h

end Script

namespace Channel

variable {c d : Channel} {t : Transport}

theorem settled_flow (attended : c.handle.Attended) : c.flow.finish.Settled := by
  cases hp : c.endpoint with
  | scripted s =>
    rw [flow, hp]
    exact Script.settled_flow s.steps c.handle
  | transport t =>
    simp only [flow, hp]
    split
    · rfl
    · exact Transport.settled_flow t.hangsAtEnd t.readTurns attended

theorem onward_await (most : Nat) (c : Channel) :
    c.handle.Onward (final (await most c)).handle := by
  cases hp : c.endpoint with
  | scripted s =>
    rw [final_await_scripted hp]
    exact Script.onward_deliver (max most 1) s.steps s.pulls c.handle
  | transport t =>
    rw [final_await_transport hp]
    obtain h | ⟨s, -, h⟩ | ⟨t, -, h⟩ := final_pull_cases most c
    · rw [h]
      exact .same _
    · rw [h]
      exact .same _
    · rw [h]
      exact t.onward_read (max most 1) c.handle

/-- The handle of the channel moved on, and of what is to come nothing but its end was lost. -/
structure Continues (c d : Channel) : Prop where
  handle : c.handle.Onward d.handle
  bytes : d.flow.bytes <+: c.flow.bytes

theorem Continues.refl (c : Channel) : c.Continues c := ⟨.same _, List.prefix_rfl⟩

theorem continues_close (c : Channel) : c.Continues c.close := by
  refine ⟨.closed _ rfl, ?_⟩
  rw [flow_of_closed rfl]
  exact List.nil_prefix

theorem continues_afterReply {α : Type} {r : Reply α} (transport : c.endpoint = .transport t)
    (on : c.handle.Onward r.handle) (hangs : r.transport.hangsAtEnd = t.hangsAtEnd)
    (turns : r.transport.readTurns = t.readTurns) : c.Continues (c.afterReply r) := by
  refine ⟨on, ?_⟩
  cases hr : r.handle.closed with
  | true =>
    rw [flow_of_closed hr]
    exact List.nil_prefix
  | false =>
    have hc : ¬ c.handle.closed = true := fun closed => by
      rw [on.stays_closed closed] at hr
      cases hr
    have h := Transport.flow_onward t.hangsAtEnd t.readTurns on
    simpa [flow, transport, afterReply, hr, hc, hangs, turns] using h

theorem continues_push (data : Bytes) (c : Channel) : c.Continues (final (push data c)) := by
  obtain h | ⟨s, hp, h⟩ | ⟨t, hp, h⟩ := push_cases data c
  · rw [h]
    exact .refl c
  · rw [h]
    exact ⟨.same _, by simp [flow, hp]⟩
  · rw [h, final_ofReply]
    exact continues_afterReply hp (Transport.onward_writeAll _ _ _ _) rfl rfl

theorem continues_flush (c : Channel) : c.Continues (final (flush c)) := by
  obtain h | h | ⟨t, hp, h⟩ := flush_cases c
  · rw [h]
    exact .refl c
  · rw [h]
    exact .refl c
  · rw [h, final_ofReply]
    exact continues_afterReply hp (Turn.onward_await _ _ _ _) rfl rfl

theorem push_ne_stuck (attended : c.handle.Attended) (data : Bytes) :
    push data c ≠ .error .stuck d := by
  obtain h | ⟨s, -, h⟩ | ⟨t, -, h⟩ := push_cases data c
  · simp [h]
  · simp [h]
  · rw [h]
    exact fun stuck => Transport.writeAll_ne_stuck _ _ _ attended (result_of_ofReply stuck)

theorem flush_ne_stuck (attended : c.handle.Attended) : flush c ≠ .error .stuck d := by
  obtain h | h | ⟨t, -, h⟩ := flush_cases c
  · simp [h]
  · simp [h]
  · rw [h]
    exact fun stuck => Turn.await_ne_stuck _ _ attended (result_of_ofReply stuck)

end Channel

end FramedMessaging
