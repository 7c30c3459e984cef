import FramedMessaging.Proofs.Channel.Calls
import FramedMessaging.Proofs.Channel.ReadRelation
/-!
The states that a stream comes to by calls of its users. In all of them an end is remembered only of
a script without steps, so what is buffered and what an open script still brings is all that is to
come.
-/
set_option autoImplicit false

namespace FramedMessaging

open Operation

def CloseHandle.StaysOpen (h : CloseHandle) : Prop :=
  h.closed = false ∧ ∀ n, h.closer ≠ .afterWaits n

theorem CloseHandle.staysOpen_of_unused : StaysOpen {} := ⟨rfl, fun _ h => by cases h⟩

theorem CloseHandle.StaysOpen.wait_eq {h : CloseHandle} (stays : h.StaysOpen) : h.wait = h := by
  obtain ⟨-, hn⟩ := stays
  cases hc : h.closer with
  | never => simp [wait, hc]
  | afterWaits n => exact absurd hc (hn n)
  | whenStuck => simp [wait, hc]

def Script.bytes (s : Script) : Bytes := s.steps.flatMap Step.bytes

namespace Script

theorem flow_of_staysOpen (steps : List Step) {h : CloseHandle} (stays : h.StaysOpen) :
    flow steps h = ⟨steps.flatMap Step.bytes, .ended⟩ := by
  induction steps with
  | nil => simp [flow, stays.1, Flow.dry]
  | cons step rest ih =>
    cases step with
    | idle => simp [flow, stays.1, stays.wait_eq, ih, Step.bytes]
    | chunk data =>
      by_cases hd : data = []
      · simp [flow, stays.1, stays.wait_eq, ih, Step.bytes, hd]
      · simp [flow, stays.1, ih, Step.bytes, hd, Flow.behind]

theorem handle_deliver (max : Nat) (steps : List Step) (pulls : Nat) {h : CloseHandle}
    (stays : h.StaysOpen) : (deliver max steps pulls h).handle = h := by
  induction steps generalizing pulls with
  | nil => simp [deliver, stays.1]
  | cons step rest ih =>
    cases step with
    | idle => simpa [deliver, stays.1, stays.wait_eq] using ih (pulls + 1)
    | chunk data =>
      by_cases hd : data = []
      · simpa [deliver, stays.1, stays.wait_eq, hd] using ih (pulls + 1)
      · simp [deliver, stays.1, hd]

theorem steps_deliver_of_end {max : Nat} {steps : List Step} {pulls : Nat} {h : CloseHandle}
    (he : (deliver max steps pulls h).result = .ok none) :
    (deliver max steps pulls h).steps = [] := by
  induction steps generalizing pulls h with
  | nil => by_cases hc : h.closed = true <;> simp [deliver, hc]
  | cons step rest ih =>
    by_cases hc : h.closed = true
    · cases step <;> simp [deliver, hc] at he
    · cases step with
      | idle =>
        simp only [deliver, hc] at he ⊢
        exact ih he
      | chunk data =>
        by_cases hd : data = []
        · simp only [deliver, hc, hd] at he ⊢
          exact ih he
        · simp [deliver, hc, hd] at he

end Script

namespace Channel

def steps (c : Channel) : List Step :=
  match c.endpoint with
  | .scripted s => s.steps
  | .transport _ => []

structure OpenScript (c : Channel) : Prop where
  scripted : ∃ s, c.endpoint = .scripted s
  staysOpen : c.handle.StaysOpen

structure Kept (c d : Channel) : Prop where
  scripted : ∃ s, d.endpoint = .scripted s
  handle : d.handle = c.handle
  written : d.written = c.written
  writeShut : d.writeShut = c.writeShut

theorem Kept.trans {c d e : Channel} (hcd : Kept c d) (hde : Kept d e) :
    Kept c e :=
  ⟨hde.scripted, hde.handle.trans hcd.handle, hde.written.trans hcd.written,
    hde.writeShut.trans hcd.writeShut⟩

theorem Kept.openScript {c d : Channel} (h : Kept c d) (hc : c.OpenScript) :
    d.OpenScript := ⟨h.scripted, h.handle ▸ hc.staysOpen⟩

theorem OpenScript.flow_eq {c : Channel} (h : c.OpenScript) :
    c.flow = ⟨c.steps.flatMap Step.bytes, .ended⟩ := by
  obtain ⟨⟨s, hs⟩, stays⟩ := h
  simp only [flow, steps, hs]
  exact Script.flow_of_staysOpen s.steps stays

theorem OpenScript.await {c : Channel} (h : c.OpenScript) (most : Nat) :
    Kept c (final (Channel.await most c)) := by
  obtain ⟨⟨s, hs⟩, stays⟩ := h
  rw [final_await_scripted hs]
  refine ⟨⟨_, rfl⟩, Script.handle_deliver (max most 1) s.steps s.pulls stays, ?_, rfl⟩
  simp [afterDelivery, Channel.written, hs]

theorem OpenScript.push {c : Channel} (h : c.OpenScript) (open_ : c.writeShut = false)
    (data : Bytes) :
    ∃ d, Channel.push data c = .ok () d ∧ d.OpenScript ∧ d.steps = c.steps ∧
      d.written = c.written ++ data ∧ d.writeShut = false := by
  obtain ⟨⟨s, hs⟩, stays⟩ := h
  refine ⟨{ c with endpoint := .scripted { s with written := s.written ++ data } }, ?_,
    ⟨⟨_, rfl⟩, stays⟩, by simp [steps, hs], by simp [Channel.written, hs], open_⟩
  simp [Channel.push, whenOpen, stays.1, open_, hs]

theorem OpenScript.flush {c : Channel} (h : c.OpenScript) : Channel.flush c = .ok () c := by
  obtain ⟨⟨s, hs⟩, stays⟩ := h
  simp [Channel.flush, whenOpen, stays.1, hs]

theorem OpenScript.shutdown {c : Channel} (h : c.OpenScript) :
    Channel.shutdown c = .ok () { c with writeShut := true } := by
  obtain ⟨⟨s, hs⟩, stays⟩ := h
  simp [Channel.shutdown, whenOpen, stays.1, hs]

theorem steps_of_transport {c : Channel} {t : Transport} (h : c.endpoint = .transport t) :
    c.steps = [] := by
  simp [steps, h]

@[simp] theorem steps_afterReply {α : Type} (c : Channel) (r : Reply α) :
    (c.afterReply r).steps = [] := rfl

theorem steps_pull_transport {c : Channel} {t : Transport} (h : c.endpoint = .transport t)
    (most : Nat) : (final (pull most c)).steps = [] := by
  obtain hc | ⟨s, hp, -⟩ | ⟨u, -, hc⟩ := final_pull_cases most c
  · rw [hc, steps_of_transport h]
  · rw [h] at hp
    cases hp
  · rw [hc, steps_afterReply]

theorem steps_of_await_end {c d : Channel} {most : Nat} (h : Channel.await most c = .ok none d) :
    d.steps = [] := by
  cases hp : c.endpoint with
  | scripted s =>
    simp only [Channel.await, hp] at h
    cases hr : (Script.deliver (max most 1) s.steps s.pulls c.handle).result with
    | error e => simp [hr] at h
    | ok b =>
      simp only [hr, EStateM.Result.ok.injEq] at h
      obtain ⟨rfl, rfl⟩ := h
      exact Script.steps_deliver_of_end hr
  | transport t =>
    have hs := steps_pull_transport hp most
    simp only [Channel.await, hp] at h
    cases hr : pull most c with
    | error e d => simp [hr] at h
    | ok p d' =>
      rw [hr] at h hs
      cases p <;> simp at h <;> exact h ▸ hs

theorem steps_push (data : Bytes) (c : Channel) : (final (push data c)).steps = c.steps := by
  obtain h | ⟨s, hp, h⟩ | ⟨t, hp, h⟩ := push_cases data c
  · rw [h, final_error]
  · simp [h, steps, hp]
  · rw [h, final_ofReply, steps_afterReply, steps_of_transport hp]

theorem steps_flush (c : Channel) : (final (flush c)).steps = c.steps := by
  obtain h | h | ⟨t, hp, h⟩ := flush_cases c
  · rw [h, final_error]
  · rw [h, final_ok]
  · rw [h, final_ofReply, steps_afterReply, steps_of_transport hp]

theorem steps_shutdown (c : Channel) : (final (shutdown c)).steps = c.steps := by
  obtain ⟨-, h⟩ | h | ⟨t, hp, -, h⟩ := shutdown_cases c
  · rw [h, final_error]
  · rw [h, final_ok]
    rfl
  · rw [h, final_ofReply, steps_afterReply, steps_of_transport hp]

theorem flow_of_chunk (data : Bytes) :
    (ofScript (.ofSteps [.chunk data])).flow = ⟨data, .ended⟩ := by
  have hc : (ofScript (.ofSteps [.chunk data])).OpenScript :=
    ⟨⟨_, rfl⟩, CloseHandle.staysOpen_of_unused⟩
  rw [hc.flow_eq]
  by_cases hd : data = []
  · simp [ofScript, Channel.steps, Script.ofSteps, hd]
  · simp [ofScript, Channel.steps, Script.ofSteps, hd, Step.bytes]

end Channel

namespace BufferedChannel

/-- The end is remembered only where the channel has nothing to come. -/
def Drained (s : BufferedChannel) : Prop := s.atEnd = true → s.channel.steps = []

def content (s : BufferedChannel) : Bytes :=
  s.readAhead.bytes ++ s.channel.steps.flatMap Step.bytes

theorem Drained.onChannel {α : Type} {op : Operation Channel α}
    (h : ∀ c, (final (op c)).steps = c.steps) {s : BufferedChannel} (drained : s.Drained) :
    (final (onChannel op s)).Drained := by
  intro he
  rw [final_onChannel] at he ⊢
  exact (h s.channel).trans (drained he)

theorem channel_fetch (most : Nat) (s : BufferedChannel) :
    (final (fetch most s)).channel =
      if s.atEnd then s.channel else final (Channel.await most s.channel) := by
  unfold fetch
  by_cases he : s.atEnd = true
  · simp [he]
  · simp only [he, onChannel]
    cases Channel.await most s.channel with
    | error e c => rfl
    | ok data c => cases data <;> rfl

theorem drained_fetch (most : Nat) (s : BufferedChannel) (drained : s.Drained) :
    (final (fetch most s)).Drained := by
  unfold fetch
  by_cases he : s.atEnd = true
  · simpa [he] using drained
  · simp only [he, onChannel]
    cases ha : Channel.await most s.channel with
    | error e c => exact fun h => absurd h Bool.false_ne_true
    | ok data c =>
      cases data with
      | none => exact fun _ => Channel.steps_of_await_end ha
      | some b => exact fun h => absurd h Bool.false_ne_true

theorem drained_relation : ReadRelation fun s t => s.Drained → t.Drained where
  refl _ h := h
  trans hst htu h := htu (hst h)
  fetch := drained_fetch
  readAhead _ _ h := h

theorem kept_relation :
    ReadRelation fun s t => s.channel.OpenScript → s.channel.Kept t.channel where
  refl _ h := ⟨h.scripted, rfl, rfl, rfl⟩
  trans hst htu h := (hst h).trans (htu ((hst h).openScript h))
  fetch most s h := by
    rw [channel_fetch]
    split
    · exact ⟨h.scripted, rfl, rfl, rfl⟩
    · exact h.await most
  readAhead _ _ h := ⟨h.scripted, rfl, rfl, rfl⟩

theorem drained_send (f : Framing) (m : Message) :
    Respects (fun s t => s.Drained → t.Drained) (f.write m) := by
  refine drained_relation.pulls.bind (drained_relation.pulls.lift _) fun frame => ?_
  refine drained_relation.pulls.bind (fun s h => h.onChannel (Channel.steps_push frame)) fun _ => ?_
  exact fun s h => h.onChannel Channel.steps_flush

inductive Call where
  | read (k : ReadCall)
  | write (data : Bytes)
  | send (f : Framing) (m : Message)
  | flush
  | shutdown
  | close

def Call.after : Call → BufferedChannel → BufferedChannel
  | .read k, s => final (k.run s)
  | .write data, s => final (BufferedChannel.write data s)
  | .send f m, s => final (f.write m s)
  | .flush, s => final (BufferedChannel.flush s)
  | .shutdown, s => final (BufferedChannel.shutdown s)
  | .close, s => s.close

inductive Reachable : BufferedChannel → Prop where
  | fresh (c : Channel) (chunkSize : Nat) : Reachable (ofChannel c chunkSize)
  | call {s : BufferedChannel} (k : Call) : Reachable s → Reachable (k.after s)

theorem Call.drained (k : Call) {s : BufferedChannel} (h : s.Drained) : (k.after s).Drained := by
  cases k with
  | read k => exact k.respects drained_relation s h
  | write data => exact h.onChannel (Channel.steps_push data)
  | send f m => exact drained_send f m s h
  | flush => exact h.onChannel Channel.steps_flush
  | shutdown => exact h.onChannel Channel.steps_shutdown
  | close => exact h

theorem Reachable.drained {s : BufferedChannel} (h : s.Reachable) : s.Drained := by
  induction h with
  | fresh c chunkSize => exact fun he => by cases he
  | call k _ ih => exact k.drained ih

structure OpenScript (s : BufferedChannel) : Prop where
  reachable : s.Reachable
  channel : s.channel.OpenScript

theorem OpenScript.flow_eq {s : BufferedChannel} (h : s.OpenScript) :
    s.flow = ⟨s.content, .ended⟩ := by
  have hd := h.reachable.drained
  unfold flow beyond content
  by_cases he : s.atEnd = true
  · simp [he, hd he, Flow.behind, Flow.dry]
  · simp [he, h.channel.flow_eq, Flow.behind]

theorem OpenScript.read {s : BufferedChannel} (h : s.OpenScript) (f : Framing) :
    (final (f.read s)).OpenScript ∧ s.channel.Kept (final (f.read s)).channel := by
  have hs := kept_relation.read f s h.channel
  have reachable := h.reachable.call (.read (.message f))
  rw [Call.after, ReadCall.run, final_map] at reachable
  exact ⟨⟨reachable, hs.openScript h.channel⟩, hs⟩

end BufferedChannel

end FramedMessaging
