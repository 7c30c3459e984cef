import FramedMessaging.Connection
import FramedMessaging.Proofs.Channel.Scripted
set_option autoImplicit false

namespace FramedMessaging

open Operation

namespace Connection

def undecodable : Except Stop (Option Message) → Bool
  | .error (.failure (.serialization _ _)) => true
  | _ => false

def goesOn : Except Stop (Option Message) → Bool
  | .ok (some _) => true
  | r => undecodable r

theorem goesOn_of_fatal {e : Failure} (fatal : e.endsConnection = true) :
    goesOn (.error (.failure e)) = false := by
  cases e with
  | serialization direction fault => cases fatal
  | _ => rfl

theorem not_undecodable_of_last {r : Except Stop (Option Message)} (last : goesOn r = false) :
    undecodable r = false := by
  unfold goesOn at last
  split at last
  · rfl
  · exact last

/-- The second connection is the first one after at least one byte was taken off its content. -/
def Spends (c d : Connection) : Prop :=
  ∃ taken, taken ≠ [] ∧ c.stream.content = taken ++ d.stream.content

variable {c d : Connection}

theorem Spends.length_lt (h : c.Spends d) : d.stream.content.length < c.stream.content.length := by
  obtain ⟨taken, ne, hc⟩ := h
  have hl := List.length_pos_iff.mpr ne
  rw [hc, List.length_append]
  omega

theorem recv_scripted (scripted : c.stream.channel.Scripted) :
    (∃ m d, recv c = .ok (some m) d ∧ d.stream.channel.Scripted ∧ c.Spends d) ∨
    (∃ direction fault d, recv c = .error (.failure (.serialization direction fault)) d ∧
      d.stream.channel.Scripted ∧ c.Spends d) ∨
    (∃ d, recv c = .ok none d ∧ d.stream.channel.Scripted) ∨
    (∃ e d, recv c = .error (.failure e) d ∧ e.endsConnection = true) := by
  obtain ⟨body, t, hr, ht, spends⟩ | ⟨t, hr, ht⟩ | ⟨e, t, hr, fatal⟩ :=
    BufferedChannel.read_cases scripted c.framing
  · cases hd : c.framing.codec.decode body with
    | ok m => exact .inl ⟨m, _, onStream_ok (by rw [hr, hd]; rfl), ht, spends⟩
    | error e =>
      obtain ⟨fault, rfl⟩ := Codec.serialization_of_decode hd
      exact .inr (.inl ⟨.decode, fault, _, onStream_error (by rw [hr, hd]; rfl), ht, spends⟩)
  · exact .inr (.inr (.inl ⟨_, onStream_ok hr, ht⟩))
  · exact .inr (.inr (.inr ⟨e, _, onStream_error hr, fatal⟩))

theorem spends_of_goesOn (scripted : c.stream.channel.Scripted)
    (on : goesOn (outcome (recv c)) = true) : c.Spends (final (recv c)) := by
  obtain ⟨m, d, hr, -, spends⟩ | ⟨direction, fault, d, hr, -, spends⟩ | ⟨d, hr, -⟩ |
    ⟨e, d, hr, fatal⟩ := recv_scripted scripted
  · rwa [hr]
  · rwa [hr]
  · rw [hr] at on
    cases on
  · rw [hr, outcome_error, goesOn_of_fatal fatal] at on
    cases on

theorem send_scripted (scripted : c.stream.channel.Scripted) (m : Message) :
    (∃ d, send m c = .ok () d ∧ d.stream.channel.Scripted ∧
      d.stream.content = c.stream.content) ∨
    (∃ e d, send m c = .error (.failure e) d) := by
  obtain ⟨t, hw, ht, hc⟩ | ⟨e, t, hw⟩ := BufferedChannel.write_cases scripted c.framing m
  · exact .inl ⟨_, onStream_ok hw, ht, hc⟩
  · exact .inr ⟨e, _, onStream_error hw⟩

theorem shutdown_scripted (scripted : c.stream.channel.Scripted) :
    (∃ d, shutdown c = .ok () d) ∨ ∃ d, shutdown c = .error (.failure .streamClosed) d := by
  obtain hs | hs := scripted.shutdown
  · exact .inr ⟨_, onStream_error (by rw [BufferedChannel.shutdown, BufferedChannel.onChannel, hs])⟩
  · exact .inl ⟨_, onStream_ok (by rw [BufferedChannel.shutdown, BufferedChannel.onChannel, hs])⟩

theorem close_scripted (scripted : c.stream.channel.Scripted) :
    c.close.stream.channel.Scripted ∧ c.close.stream.content = c.stream.content := by
  unfold close
  split <;> exact ⟨scripted, rfl⟩

theorem reacted_scripted (scripted : c.stream.channel.Scripted) (closes : Bool) :
    (if closes then c.close else c).stream.channel.Scripted ∧
      (if closes then c.close else c).stream.content = c.stream.content := by
  cases closes with
  | true => exact close_scripted scripted
  | false => exact ⟨scripted, rfl⟩

end Connection

namespace Worker

open Connection

inductive Sequel where
  | next (p : Progress) (c : Connection)
  | last (r : WorkerRun)

def round (handler : Handler) (p : Progress) (c : Connection) : Sequel :=
  match recv c with
  | .error .stuck c => .last (p.stop .stuck c)
  | .error (.failure e) c =>
    if e.endsConnection then .last (p.finish (some e) c) else .next p.reject c
  | .ok none c => .last (shutDown p c)
  | .ok (some m) c =>
    let reaction := handler p.frames m
    let c := if reaction.closes then c.close else c
    let p := p.accept m
    match reaction.reply with
    | .error e => if e.endsConnection then .last (p.finish (some e) c) else .next p.reject c
    | .ok none => .next p c
    | .ok (some reply) =>
      match send reply c with
      | .ok () c => .next p c
      | .error .stuck c => .last (p.stop .stuck c)
      | .error (.failure e) c => .last (p.finish (some e) c)

def readers (handler : Handler) : Nat → Progress → Connection → List Connection
  | 0, _, _ => []
  | reads + 1, p, c =>
    c :: match round handler p c with
      | .next p c => readers handler reads p c
      | .last _ => []

variable {handler : Handler} {reads : Nat} {p q : Progress} {c d : Connection}

theorem loop_succ (handler : Handler) (reads : Nat) (p : Progress) (c : Connection) :
    loop handler (reads + 1) p c =
      match round handler p c with
      | .next p c => loop handler reads p c
      | .last r => r := by
  rw [loop, round]
  cases recv c with
  | ok m d =>
    cases m with
    | none => rfl
    | some m =>
      dsimp only
      cases (handler p.frames m).reply with
      | error e =>
        dsimp only
        split <;> rfl
      | ok reply =>
        cases reply with
        | none => rfl
        | some reply =>
          dsimp only
          cases send reply (if (handler p.frames m).closes then d.close else d) with
          | ok a d => rfl
          | error why d => cases why <;> rfl
  | error why d =>
    cases why with
    | stuck => rfl
    | failure e =>
      dsimp only
      split <;> rfl

inductive Rounded (p : Progress) (c : Connection) : Sequel → Prop where
  | ends (error : Option Failure) (d : Connection)
      (last : goesOn (outcome (recv c)) = false) : Rounded p c (.last (p.finish error d))
  | passes {d : Connection} (garbled : undecodable (outcome (recv c)) = true)
      (scripted : d.stream.channel.Scripted)
      (shorter : d.stream.content.length < c.stream.content.length) :
      Rounded p c (.next p.reject d)
  | serves {d : Connection} {q : Progress} (m : Message)
      (decoded : undecodable (outcome (recv c)) = false)
      (accepted : q = p.accept m ∨ q = (p.accept m).reject)
      (scripted : d.stream.channel.Scripted)
      (shorter : d.stream.content.length < c.stream.content.length) : Rounded p c (.next q d)
  | breaks (m : Message) (error : Option Failure) (d : Connection)
      (decoded : undecodable (outcome (recv c)) = false)
      (nonempty : 0 < c.stream.content.length) :
      Rounded p c (.last ((p.accept m).finish error d))

theorem shutDown_scripted (p : Progress) (scripted : c.stream.channel.Scripted) :
    ∃ d, shutDown p c = p.finish none d := by
  rw [shutDown]
  obtain ⟨d, hs⟩ | ⟨d, hs⟩ := shutdown_scripted scripted <;> exact ⟨d, by rw [hs]⟩

theorem rounded (handler : Handler) (p : Progress) (scripted : c.stream.channel.Scripted) :
    Rounded p c (round handler p c) := by
  unfold round
  obtain ⟨m, d, hr, hd, spends⟩ | ⟨direction, fault, d, hr, hd, spends⟩ | ⟨d, hr, hd⟩ |
    ⟨e, d, hr, fatal⟩ := recv_scripted scripted
  -- A read that gives a message spends a byte of the content, and the reaction spends none.
  · have shorter := spends.length_lt
    have decoded : undecodable (outcome (recv c)) = false := by rw [hr]; rfl
    have nonempty : 0 < c.stream.content.length := Nat.zero_lt_of_lt shorter
    obtain ⟨hclosed, hcontent⟩ := reacted_scripted hd (handler p.frames m).closes
    rw [hr]
    dsimp only
    cases (handler p.frames m).reply with
    | error e =>
      dsimp only
      split
      · exact .breaks m (some e) _ decoded nonempty
      · exact .serves m decoded (.inr rfl) hclosed (hcontent ▸ shorter)
    | ok reply =>
      cases reply with
      | none => exact .serves m decoded (.inl rfl) hclosed (hcontent ▸ shorter)
      | some reply =>
        obtain ⟨u, hs, hu, hc⟩ | ⟨e, u, hs⟩ := send_scripted hclosed reply
        · simp only [hs]
          exact .serves m decoded (.inl rfl) hu (by rw [hc, hcontent]; exact shorter)
        · simp only [hs]
          exact .breaks m (some e) u decoded nonempty
  · rw [hr]
    exact .passes (by rw [hr]; rfl) hd spends.length_lt
  · obtain ⟨u, hu⟩ := shutDown_scripted p hd
    rw [hr]
    dsimp only
    rw [hu]
    exact .ends none u (by rw [hr]; rfl)
  · rw [hr]
    dsimp only
    rw [if_pos fatal]
    exact .ends (some e) d (by rw [hr]; exact goesOn_of_fatal fatal)

theorem scripted_of_next (scripted : c.stream.channel.Scripted)
    (next : round handler p c = .next q d) :
    d.stream.channel.Scripted ∧ d.stream.content.length < c.stream.content.length := by
  have h := rounded handler p scripted
  rw [next] at h
  cases h with
  | passes _ hd shorter => exact ⟨hd, shorter⟩
  | serves _ _ _ hd shorter => exact ⟨hd, shorter⟩

theorem readers_length_le (reads : Nat) (p : Progress) (scripted : c.stream.channel.Scripted) :
    (readers handler reads p c).length ≤ c.stream.content.length + 1 := by
  induction reads generalizing p c with
  | zero => exact Nat.zero_le _
  | succ reads ih =>
    rw [readers]
    cases hn : round handler p c with
    | last r => exact Nat.le_add_left 1 _
    | next q d =>
      obtain ⟨hd, shorter⟩ := scripted_of_next scripted hn
      have hl := ih q hd
      simp only [List.length_cons]
      omega

theorem scripted_of_mem_readers (scripted : c.stream.channel.Scripted)
    (mem : d ∈ readers handler reads p c) : d.stream.channel.Scripted := by
  induction reads generalizing p c with
  | zero => cases mem
  | succ reads ih =>
    rw [readers, List.mem_cons] at mem
    cases hn : round handler p c with
    | last r =>
      rw [hn] at mem
      obtain rfl | mem := mem
      · exact scripted
      · cases mem
    | next q u =>
      rw [hn] at mem
      obtain rfl | mem := mem
      · exact scripted
      · exact ih (scripted_of_next scripted hn).1 mem

theorem loop_eq_of_lt {more : Nat} (scripted : c.stream.channel.Scripted)
    (enough : c.stream.content.length < reads) (also : c.stream.content.length < more) :
    loop handler reads p c = loop handler more p c := by
  induction reads generalizing more p c with
  | zero => omega
  | succ reads ih =>
    obtain ⟨more, rfl⟩ : ∃ n, more = n + 1 := ⟨more - 1, by omega⟩
    rw [loop_succ, loop_succ]
    cases hn : round handler p c with
    | last r => rfl
    | next q d =>
      obtain ⟨hd, shorter⟩ := scripted_of_next scripted hn
      exact ih hd (by omega) (by omega)

def undecoded (handler : Handler) (reads : Nat) (p : Progress) (c : Connection) : Nat :=
  (readers handler reads p c).countP fun d => undecodable (outcome (recv d))

def Within (r : WorkerRun) (undecoded bound : Nat) : Prop :=
  (∃ s, r.ending = .finished s ∧ s.frames = r.seen.length) ∧ r.seen.length + undecoded ≤ bound

theorem within_finish {error : Option Failure} {bound : Nat} (counted : p.frames = p.seen.length)
    (within : p.seen.length ≤ bound) : Within (p.finish error c) 0 bound :=
  ⟨⟨_, rfl, by simp [Progress.finish, Progress.stop, counted]⟩,
    by simpa [Progress.finish, Progress.stop] using within⟩

theorem loop_within (scripted : c.stream.channel.Scripted) (counted : p.frames = p.seen.length)
    (enough : c.stream.content.length < reads) :
    Within (loop handler reads p c) (undecoded handler reads p c)
      (p.seen.length + c.stream.content.length) := by
  induction reads generalizing p c with
  | zero => omega
  | succ reads ih =>
    have h := rounded handler p scripted
    rw [loop_succ, undecoded, readers, List.countP_cons]
    revert h
    cases hn : round handler p c with
    | next q d =>
      intro h
      cases h with
      | passes garbled hd shorter =>
        -- The byte that the payload took pays for one more undecodable read.
        obtain ⟨finished, within⟩ := ih hd (p := p.reject) counted (by omega)
        refine ⟨finished, ?_⟩
        simp only [undecoded, Progress.reject] at within
        simp only [garbled, if_true, Progress.reject]
        omega
      | serves m decoded accepted hd shorter =>
        have hq : q.frames = q.seen.length ∧ q.seen.length = p.seen.length + 1 := by
          rcases accepted with rfl | rfl <;> simp [Progress.accept, Progress.reject, counted]
        -- The byte that the payload took pays for one more call.
        obtain ⟨finished, within⟩ := ih hd hq.1 (by omega)
        refine ⟨finished, ?_⟩
        simp only [undecoded] at within
        simp only [decoded, Bool.false_eq_true, if_false]
        omega
    | last r =>
      intro h
      cases h with
      | ends error d last =>
        simp only [not_undecodable_of_last last, List.countP_nil, Bool.false_eq_true, if_false]
        exact within_finish counted (Nat.le_add_right _ _)
      | breaks m error d decoded nonempty =>
        simp only [decoded, List.countP_nil, Bool.false_eq_true, if_false]
        refine within_finish (by simp [Progress.accept, counted]) ?_
        simp only [Progress.accept, List.length_cons]
        omega

/-- A worker over a script stops. It reads at most once more than the content has bytes, and more
reads would not be used. Each read that gives a message or a payload that does not convert takes
bytes off the content, so there are no more of these reads than bytes. -/
theorem run_bounded (scripted : c.stream.channel.Scripted) :
    let n := c.stream.content.length
    (∀ reads, (readers handler reads .start c).length ≤ n + 1) ∧
    (∀ reads, n < reads → loop handler reads .start c = run handler c) ∧
    (∀ reads, ∀ d ∈ readers handler reads .start c,
      goesOn (outcome (recv d)) = true → d.Spends (final (recv d))) ∧
    (∃ s, (run handler c).ending = .finished s ∧ s.frames = (run handler c).seen.length) ∧
    (run handler c).seen.length + undecoded handler (n + 1) .start c ≤ n := by
  intro n
  have hn : n < c.stream.available + 1 :=
    Nat.lt_succ_of_le (Nat.le_of_eq (BufferedChannel.length_content scripted))
  have henough (reads : Nat) (h : n < reads) : loop handler reads .start c = run handler c :=
    loop_eq_of_lt scripted h hn
  have hw : Within (loop handler (n + 1) .start c) (undecoded handler (n + 1) .start c) (0 + n) :=
    loop_within scripted rfl (Nat.lt_succ_self n)
  rw [henough (n + 1) (Nat.lt_succ_self n), Nat.zero_add] at hw
  refine ⟨fun reads => readers_length_le reads .start scripted, henough, ?_, hw.1, hw.2⟩
  intro reads d mem on
  exact spends_of_goesOn (scripted_of_mem_readers scripted mem) on

/-- The payloads are empty and none of them converts, so the bounds are reached. -/
theorem run_bounded_by_markers :
    let echo : Handler := fun _ m => ⟨false, .ok (some m)⟩
    let c := Connection.ofStream
      (.ofChannel (.ofScript (.ofSteps [.chunk [10], .idle, .chunk [10]])) 1)
      (.endMarker ⟨[10], by decide, none, .msgpack⟩) false
    c.stream.content.length = 2 ∧ (readers echo 3 .start c).length = 3 ∧
      undecoded echo 3 .start c = 2 ∧
      (run echo c).seen.length + undecoded echo 3 .start c ≤ 2 := by
  intro echo c
  have h := @run_bounded echo c ⟨_, rfl⟩
  exact ⟨rfl, rfl, rfl, h.2.2.2.2⟩

end Worker

end FramedMessaging
