import FramedMessaging.Channel
/-!
What is still to come on a channel: the bytes, and how the channel goes on after them. Waits and the
cuts between pieces leave no trace in it. A read takes bytes off its front, and tells how it
finishes only when no bytes are left.
-/
set_option autoImplicit false

namespace FramedMessaging

inductive Finish where
  | ended
  | stopped (why : Stop)
  deriving DecidableEq, Repr

structure Flow where
  bytes : Bytes
  finish : Finish
  deriving DecidableEq, Repr

namespace Flow

def dry : Flow := ⟨[], .ended⟩

def halted (why : Stop) : Flow := ⟨[], .stopped why⟩

def closed : Flow := halted (.failure .streamClosed)

def behind (data : Bytes) (w : Flow) : Flow := ⟨data ++ w.bytes, w.finish⟩

@[simp] theorem bytes_dry : dry.bytes = [] := rfl

@[simp] theorem finish_dry : dry.finish = .ended := rfl

@[simp] theorem bytes_halted (why : Stop) : (halted why).bytes = [] := rfl

@[simp] theorem finish_halted (why : Stop) : (halted why).finish = .stopped why := rfl

@[simp] theorem bytes_behind (data : Bytes) (w : Flow) :
    (w.behind data).bytes = data ++ w.bytes := rfl

@[simp] theorem finish_behind (data : Bytes) (w : Flow) : (w.behind data).finish = w.finish := rfl

@[simp] theorem behind_nil (w : Flow) : w.behind [] = w := rfl

theorem behind_behind (a b : Bytes) (w : Flow) : (w.behind b).behind a = w.behind (a ++ b) := by
  simp [behind]

end Flow

open FramedMessaging.Flow

def Step.bytes : Step → Bytes
  | chunk data => data
  | idle => []

namespace Script

def flow : List Step → CloseHandle → Flow
  | [], h => if h.closed then closed else dry
  | .idle :: rest, h => if h.closed then closed else flow rest h.wait
  | .chunk data :: rest, h =>
    if h.closed then closed
    else if data = [] then flow rest h.wait
    else (flow rest h).behind data

theorem flow_of_closed (steps : List Step) {h : CloseHandle} (hc : h.closed = true) :
    flow steps h = closed := by
  cases steps with
  | nil => simp [flow, hc]
  | cons step rest => cases step <;> simp [flow, hc]

theorem flow_afterTaking (max : Nat) (data : Bytes) (rest : List Step) {h : CloseHandle}
    (hc : h.closed = false) :
    (flow (afterTaking max data rest) h).behind (data.take max) = (flow rest h).behind data := by
  unfold afterTaking
  by_cases hd : data.drop max = []
  · have ht : data.take max = data := by simpa [hd] using List.take_append_drop max data
    simp [hd, ht]
  · simp [hd, flow, hc, behind_behind]

theorem deliver_flow {max : Nat} (hm : 0 < max) (steps : List Step) (pulls : Nat)
    (h : CloseHandle) :
    let d := deliver max steps pulls h
    match d.result with
    | .ok none => flow steps h = dry
    | .ok (some b) =>
      b ≠ [] ∧ b.length ≤ max ∧ flow steps h = (flow d.steps d.handle).behind b
    | .error why => flow steps h = halted why := by
  induction steps generalizing pulls h with
  | nil => by_cases hc : h.closed = true <;> simp [deliver, flow, hc, closed]
  | cons step rest ih =>
    by_cases hc : h.closed = true
    · cases step <;> simp [deliver, flow, hc, closed]
    · cases step with
      | idle => simpa [deliver, flow, hc] using ih (pulls + 1) h.wait
      | chunk data =>
        by_cases hd : data = []
        · simpa [deliver, flow, hc, hd] using ih (pulls + 1) h.wait
        · have hf := flow_afterTaking max data rest (by simpa using hc)
          simp [deliver, flow, hc, hd, hf]
          omega

theorem flow_length_le (s : Script) (h : CloseHandle) :
    (flow s.steps h).bytes.length ≤ s.remaining := by
  unfold remaining
  induction s.steps generalizing h with
  | nil => by_cases hc : h.closed = true <;> simp [flow, hc, closed, halted, dry]
  | cons step rest ih =>
    by_cases hc : h.closed = true
    · simp [flow_of_closed _ hc, closed, halted]
    · cases step with
      | idle => simpa [flow, hc, Step.size] using ih h.wait
      | chunk data =>
        by_cases hd : data = []
        · simpa [flow, hc, hd, Step.size] using ih h.wait
        · simpa [flow, hc, hd, Step.size] using ih h

end Script

namespace Transport

/-- What the turns of a reader bring where the handle is open at the start. -/
def flow (hangsAtEnd : Bool) : List (Turn Bytes) → CloseHandle → Flow
  | [], h => if hangsAtEnd then halted (Turn.endless true h.stall) else dry
  | .ready data :: rest, h => if data = [] then dry else (flow hangsAtEnd rest h).behind data
  | .fails e :: _, _ => halted (.failure e.failure)
  | .yields :: rest, h => if h.wait.closed then closed else flow hangsAtEnd rest h.wait
  | .hangs :: _, h => halted (Turn.endless true h.stall)

theorem await_flow (hangsAtEnd : Bool) (turns : List (Turn Bytes)) {h : CloseHandle}
    (hc : h.closed = false) :
    let call := Turn.await true (if hangsAtEnd then none else some []) turns h
    match call.result with
    | .ok [] => flow hangsAtEnd turns h = dry
    | .ok data =>
      call.handle.closed = false ∧
        flow hangsAtEnd turns h = (flow hangsAtEnd call.turns call.handle).behind data
    | .error why => flow hangsAtEnd turns h = halted why := by
  induction turns generalizing h with
  | nil => cases hangsAtEnd <;> simp [Turn.await, flow]
  | cons turn rest ih =>
    cases turn with
    | ready data => cases data <;> simp [Turn.await, flow, hc]
    | fails e => simp [Turn.await, flow]
    | yields =>
      by_cases hw : h.wait.closed = true
      · simp [Turn.await, flow, hw, closed]
      · simpa [Turn.await, flow, hw] using ih (by simpa using hw)
    | hangs => simp [Turn.await, flow]

theorem flow_putBack (hangsAtEnd : Bool) (max : Nat) (data : Bytes) (turns : List (Turn Bytes))
    (h : CloseHandle) :
    (flow hangsAtEnd (if data.drop max = [] then turns else .ready (data.drop max) :: turns)
      h).behind (data.take max) = (flow hangsAtEnd turns h).behind data := by
  by_cases hd : data.drop max = []
  · have ht : data.take max = data := by simpa [hd] using List.take_append_drop max data
    simp [hd, ht]
  · simp [hd, flow, behind_behind]

theorem read_flow {max : Nat} (hm : 0 < max) (t : Transport) {h : CloseHandle}
    (hc : h.closed = false) :
    let r := t.read max h
    match r.result with
    | .ok [] => flow t.hangsAtEnd t.readTurns h = dry
    | .ok data =>
      r.handle.closed = false ∧ data.length ≤ max ∧
        flow t.hangsAtEnd t.readTurns h =
          (flow r.transport.hangsAtEnd r.transport.readTurns r.handle).behind data
    | .error why => flow t.hangsAtEnd t.readTurns h = halted why := by
  have h := await_flow t.hangsAtEnd t.readTurns hc
  revert h
  simp only [read]
  generalize Turn.await true (if t.hangsAtEnd then none else some []) t.readTurns _ = call
  intro h
  cases hr : call.result with
  | error why => simpa [hr] using h
  | ok data =>
    cases data with
    | nil => simpa [hr] using h
    | cons b more =>
      have hback := flow_putBack t.hangsAtEnd max (b :: more) call.turns call.handle
      obtain ⟨max, rfl⟩ : ∃ n, max = n + 1 := ⟨max - 1, by omega⟩
      simp only [hr, List.take_succ_cons, List.drop_succ_cons] at h hback ⊢
      have hl : (b :: more.take max).length ≤ max + 1 := by
        rw [List.length_cons, List.length_take]
        omega
      exact ⟨h.1, hl, h.2.trans hback.symm⟩

theorem flow_length_le (t : Transport) (h : CloseHandle) :
    (flow t.hangsAtEnd t.readTurns h).bytes.length ≤ t.undelivered := by
  unfold undelivered
  induction t.readTurns generalizing h with
  | nil => cases hh : t.hangsAtEnd <;> simp [flow, halted, dry]
  | cons turn rest ih =>
    cases turn with
    | ready data =>
      by_cases hd : data = []
      · simp [flow, hd, dry]
      · simpa [flow, hd] using ih h
    | fails e => simp [flow, halted]
    | yields =>
      by_cases hw : h.wait.closed = true
      · simp [flow, hw, closed, halted]
      · simpa [flow, hw] using ih h.wait
    | hangs => simp [flow, halted]

end Transport

namespace Channel

def flow (c : Channel) : Flow :=
  match c.endpoint with
  | .scripted s => Script.flow s.steps c.handle
  | .transport t =>
    if c.handle.closed then closed else Transport.flow t.hangsAtEnd t.readTurns c.handle

theorem flow_of_closed {c : Channel} (hc : c.handle.closed = true) : c.flow = closed := by
  cases hp : c.endpoint with
  | scripted s =>
    rw [flow, hp]
    exact Script.flow_of_closed s.steps hc
  | transport t => simp [flow, hp, hc]

theorem flow_length_le (c : Channel) : c.flow.bytes.length ≤ c.undelivered := by
  cases hp : c.endpoint with
  | scripted s => simpa [flow, undelivered, hp] using s.flow_length_le c.handle
  | transport t =>
    by_cases hc : c.handle.closed = true
    · simp [flow, hp, hc, closed, halted]
    · simpa [flow, undelivered, hp, hc] using t.flow_length_le c.handle

theorem await_cases (most : Nat) (c : Channel) :
    (∃ b d, await most c = .ok (some b) d ∧ b ≠ [] ∧ b.length ≤ max most 1 ∧
      c.flow = d.flow.behind b) ∨
    (∃ d, await most c = .ok none d ∧ c.flow = dry) ∨
    (∃ why d, await most c = .error why d ∧ c.flow = halted why) := by
  have hm : 0 < max most 1 := by omega
  cases hp : c.endpoint with
  | scripted s =>
    have h := Script.deliver_flow hm s.steps s.pulls c.handle
    simp only [await, flow, hp]
    cases hr : (Script.deliver (max most 1) s.steps s.pulls c.handle).result with
    | error why => exact .inr (.inr ⟨why, _, rfl, by simpa [hr] using h⟩)
    | ok data =>
      cases data with
      | none => exact .inr (.inl ⟨_, rfl, by simpa [hr] using h⟩)
      | some b =>
        simp only [hr] at h
        exact .inl ⟨b, _, rfl, h⟩
  | transport t =>
    by_cases hc : c.handle.closed = true
    · refine .inr (.inr ⟨.failure .streamClosed, c, ?_, ?_⟩)
      · simp [await, pull, whenOpen, hp, hc]
      · simp [flow, hp, hc, closed]
    · have h := Transport.read_flow hm t (by simpa using hc)
      simp only [await, pull, whenOpen, flow, ofReply, hp, hc, if_false, Bool.false_eq_true]
      cases hr : (t.read (max most 1) c.handle).result with
      | error why => exact .inr (.inr ⟨why, _, rfl, by simpa [hr] using h⟩)
      | ok data =>
        cases data with
        | nil => exact .inr (.inl ⟨_, rfl, by simpa [hr] using h⟩)
        | cons b more =>
          simp only [hr] at h
          refine .inl ⟨_, _, rfl, by simp, h.2.1, ?_⟩
          simpa [afterReply, h.1] using h.2.2

end Channel

end FramedMessaging
