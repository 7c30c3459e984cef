import FramedMessaging.Proofs.Channel.ByteQueue
import FramedMessaging.Proofs.Framing.Outcomes
/-!
The bounds that reading relies on. The reads are written once more with every difference and every
index checked where it is taken, and they come to the same: no check ever fails, whatever the
channel brings, as no pull gives more than was asked for.
-/
set_option autoImplicit false

namespace FramedMessaging

open Operation

def Operation.subtract {σ : Type} (a b : Nat) : Operation σ Nat :=
  if b ≤ a then pure (a - b) else fail (.outOfBounds b a)

namespace BufferedChannel

def gatherChecked (n : Nat) : Nat → Bytes → Operation BufferedChannel Bytes
  | 0, got => pure got
  | rounds + 1, got =>
    if got.length < n then do
      let missing ← subtract n got.length
      match ← pull (min missing (← get).chunkSize) with
      | some data => gatherChecked n rounds (got ++ data)
      | none => pure got
    else pure got

def readUpToChecked (n : Nat) : Operation BufferedChannel Bytes := gatherChecked n n []

def readExactChecked (n : Nat) : Operation BufferedChannel Bytes := do
  let data ← readUpToChecked n
  if data.length < n then .fail (.framing (.endedInBody data.length n)) else return data

end BufferedChannel

open BufferedChannel

def LengthFraming.readBodyChecked (f : LengthFraming) :
    Operation BufferedChannel (Option Bytes) := do
  let width := f.header.width.bytes
  let digits ← readUpToChecked width
  if digits = [] then return none
  if digits.length < width then .fail (.framing (.endedInHeader digits.length width))
  match f.header.decode? digits with
  | none => .fail (.framing .unreadableHeader)
  | some declared =>
    if f.maxFrame < declared then .fail (.framing (.declaredTooLarge declared f.maxFrame))
    return some (← readExactChecked declared)

def matchFrom (token : Bytes) : Nat → Bytes → Except Failure Nat
  | matched, [] => .ok matched
  | matched, b :: more =>
    match token[matched]? with
    | none => .error (.outOfBounds matched token.length)
    | some t =>
      if b = t then matchFrom token (matched + 1) more
      else .error (.mismatch (.unexpectedByte b matched))

def readTokenChecked (token : Bytes) : Nat → Nat → Operation BufferedChannel Bool
  | 0, _ => pure true
  | rounds + 1, matched =>
    if matched < token.length then do
      let missing ← subtract token.length matched
      match ← pull missing with
      | none =>
        if matched = 0 then return false
        else .fail (.framing (.endedInToken matched token.length))
      | some data => readTokenChecked token rounds (← Operation.lift (matchFrom token matched data))
    else pure true

def Framing.readChecked : Framing → Operation BufferedChannel (Option Message)
  | direct f => do decoded f.codec (← f.readRaw)
  | lengthPrefixed f => do decoded f.codec (← f.readBodyChecked)
  | endMarker f => do decoded f.codec (← readUntil f.marker f.maxSize)
  | negotiated token _ inner => do
    if ← readTokenChecked token token.length 0 then
      match ← inner.readChecked with
      | some m => return some m
      | none => .fail (.framing .endedAfterToken)
    else return none

def ReadCall.runChecked : ReadCall → Operation BufferedChannel (Option Message ⊕ Option Bytes)
  | message f => .inl <$> f.readChecked
  | bytes (.readUpTo n) => .inr <$> some <$> readUpToChecked n
  | bytes (.readExact n) => .inr <$> some <$> readExactChecked n
  | bytes k => .inr <$> k.run

theorem Operation.subtract_eq {σ : Type} {a b : Nat} (le : b ≤ a) :
    (subtract a b : Operation σ Nat) = pure (a - b) := if_pos le

namespace BufferedChannel

theorem gatherChecked_eq (n rounds : Nat) (got : Bytes) :
    gatherChecked n rounds got = gather rounds (n - got.length) got := by
  induction rounds generalizing got with
  | zero => rfl
  | succ rounds ih =>
    rw [gatherChecked, gather]
    by_cases h : got.length < n
    · rw [if_pos h, if_neg (by omega), subtract_eq (Nat.le_of_lt h), pure_bind]
      refine bind_congr fun s => bind_congr fun data => ?_
      cases data with
      | none => rfl
      | some data =>
        have hm : n - (got ++ data).length = n - got.length - data.length := by
          rw [List.length_append, Nat.sub_sub]
        exact (ih (got ++ data)).trans (by rw [hm])
    · rw [if_neg h, if_pos (by omega)]

theorem readUpToChecked_eq : readUpToChecked = readUpTo :=
  funext fun n => gatherChecked_eq n n []

theorem readExactChecked_eq : readExactChecked = readExact := by
  funext n
  rw [readExactChecked, readUpToChecked_eq, readExact]

end BufferedChannel

theorem LengthFraming.readBodyChecked_eq (f : LengthFraming) : f.readBodyChecked = f.readBody := by
  rw [readBodyChecked, readUpToChecked_eq, readExactChecked_eq]
  rfl

theorem matchFrom_eq {token data : Bytes} {matched : Nat}
    (fits : matched + data.length ≤ token.length) :
    (matchFrom token matched data = .ok (matched + data.length) ∧
      matchToken matched data (token.drop matched) = .ok (token.drop (matched + data.length))) ∨
    (∃ e, matchFrom token matched data = .error e ∧
      matchToken matched data (token.drop matched) = .error e) := by
  induction data generalizing matched with
  | nil => exact .inl ⟨rfl, rfl⟩
  | cons b more ih =>
    simp only [List.length_cons] at fits
    have hlt : matched < token.length := by omega
    rw [matchFrom, List.getElem?_eq_getElem hlt, List.drop_eq_getElem_cons hlt, matchToken]
    dsimp only
    by_cases hb : b = token[matched]
    · rw [if_pos hb, if_pos hb, List.length_cons, ← Nat.add_assoc, Nat.add_right_comm]
      exact ih (by omega)
    · rw [if_neg hb, if_neg hb]
      exact .inr ⟨_, rfl, rfl⟩

theorem readTokenChecked_eq (token : Bytes) (rounds : Nat) {matched : Nat}
    (le : matched ≤ token.length) (s : BufferedChannel) :
    readTokenChecked token rounds matched s =
      readToken token.length rounds (token.drop matched) s := by
  induction rounds generalizing matched s with
  | zero => rfl
  | succ rounds ih =>
    rw [readTokenChecked, readToken]
    by_cases hlt : matched < token.length
    · have ne : token.drop matched ≠ [] := by simpa using hlt
      have hl : (token.drop matched).length = token.length - matched := List.length_drop
      have hm : token.length - (token.length - matched) = matched := by omega
      rw [if_pos hlt, if_neg ne, subtract_eq le, pure_bind, hl, hm]
      rcases pull_cases (token.length - matched) s with
        ⟨b, t, hp, -, hb, -⟩ | ⟨t, hp, -⟩ | ⟨why, t, hp, -⟩
      · rw [bind_ok hp, bind_ok hp]
        dsimp only
        -- No more came than was asked for, so the index stays inside the token.
        have fits : matched + b.length ≤ token.length := by omega
        obtain ⟨hf, ht⟩ | ⟨e, hf, ht⟩ := matchFrom_eq fits
        · rw [hf, ht]
          exact ih fits t
        · rw [hf, ht]
          rfl
      · rw [bind_ok hp, bind_ok hp]
      · rw [bind_error hp, bind_error hp]
    · have nil : token.drop matched = [] := by simpa using hlt
      rw [if_neg hlt, if_pos nil]

theorem Framing.readChecked_eq (f : Framing) : f.readChecked = f.read := by
  induction f with
  | direct f => rfl
  | lengthPrefixed f => rw [readChecked, f.readBodyChecked_eq, read]
  | endMarker f => rfl
  | negotiated token ne inner ih =>
    have ht : readTokenChecked token token.length 0 = expectToken token :=
      funext (readTokenChecked_eq token token.length (Nat.zero_le _))
    rw [readChecked, ht, ih]
    rfl

theorem ReadCall.runChecked_eq (k : ReadCall) : k.runChecked = k.run := by
  cases k with
  | message f => rw [runChecked, f.readChecked_eq, run]
  | bytes k =>
    cases k with
    | readUpTo n => rw [runChecked, readUpToChecked_eq, run, QueueCall.run]
    | readExact n => rw [runChecked, readExactChecked_eq, run, QueueCall.run]
    | _ => rfl

inductive Stop.OfChannel : Stop → Prop where
  | closed : OfChannel (.failure .streamClosed)
  | io (text : String) : OfChannel (.failure (.io text))
  | stuck : OfChannel .stuck

def Finish.OfChannel : Finish → Prop
  | .stopped why => why.OfChannel
  | .ended => True

theorem TransportError.ofChannel (e : TransportError) : (Stop.failure e.failure).OfChannel := by
  unfold TransportError.failure
  split
  · exact .closed
  · exact .io e.text

theorem Turn.ofChannel_endless (raced : Bool) (h : CloseHandle) : (endless raced h).OfChannel := by
  unfold endless
  split
  · exact .closed
  · exact .stuck

theorem Script.ofChannel_flow (steps : List Step) (h : CloseHandle) :
    (flow steps h).finish.OfChannel := by
  induction steps generalizing h with
  | nil =>
    rw [flow]
    split
    · exact .closed
    · trivial
  | cons step rest ih =>
    cases hc : h.closed with
    | true =>
      rw [flow_of_closed _ hc]
      exact .closed
    | false =>
      cases step with
      | idle => simpa [flow, hc] using ih h.wait
      | chunk data =>
        by_cases hd : data = []
        · simpa [flow, hc, hd] using ih h.wait
        · simpa [flow, hc, hd] using ih h

theorem Transport.ofChannel_flow (hangsAtEnd : Bool) (turns : List (Turn Bytes)) (h : CloseHandle) :
    (flow hangsAtEnd turns h).finish.OfChannel := by
  induction turns generalizing h with
  | nil =>
    cases hangsAtEnd with
    | false => trivial
    | true => exact Turn.ofChannel_endless _ _
  | cons turn rest ih =>
    cases turn with
    | ready data =>
      by_cases hd : data = []
      · simp [flow, hd, Finish.OfChannel]
      · simpa [flow, hd] using ih h
    | fails e => exact e.ofChannel
    | yields =>
      rw [flow]
      split
      · exact .closed
      · exact ih h.wait
    | hangs => exact Turn.ofChannel_endless _ _

theorem BufferedChannel.ofChannel_flow (s : BufferedChannel) : s.flow.finish.OfChannel := by
  rw [finish_flow, beyond]
  split
  · trivial
  · unfold Channel.flow
    split
    · exact Script.ofChannel_flow _ _
    · split
      · exact .closed
      · exact Transport.ofChannel_flow _ _ _

/-- The stop tells neither of a bound that was missed nor of a header that cannot be read. -/
def Stop.inBounds : Stop → Bool
  | .failure (.outOfBounds _ _) => false
  | .failure (.framing .unreadableHeader) => false
  | _ => true

theorem Stop.OfChannel.inBounds {why : Stop} (h : why.OfChannel) : why.inBounds = true := by
  cases h <;> rfl

theorem Finish.Explains.inBounds {finish : Finish} {why : Stop} (h : finish.Explains why)
    (own : finish.OfChannel) : why.inBounds = true := by
  cases h with
  | own stopped =>
    rw [stopped] at own
    exact Stop.OfChannel.inBounds own
  | unfit fault readable => cases fault <;> first | rfl | exact absurd rfl readable
  | mismatch fault => rfl

section

variable {s t : BufferedChannel} {why : Stop}

theorem BufferedChannel.inBounds_of_flow (h : s.flow.finish = .stopped why) :
    why.inBounds = true := by
  have own := s.ofChannel_flow
  rw [h] at own
  exact own.inBounds

theorem Meets.inBounds {α : Type} {out : Bytes → Except Failure α} {c : Cut}
    {r : EStateM.Result Stop BufferedChannel (Option α)} (h : Meets out s.flow.finish r c)
    (converts : ∀ b e, out b = .error e → (Stop.failure e).inBounds = true)
    (explained : c.Explained s.flow.finish) (failed : r = .error why t) :
    why.inBounds = true := by
  cases c with
  | payload body rest =>
    obtain ⟨u, hr, -⟩ := h
    rw [failed] at hr
    cases ho : out body with
    | ok a =>
      rw [ho] at hr
      cases hr
    | error e =>
      rw [ho] at hr
      cases hr
      exact converts body e ho
  | ended =>
    obtain ⟨u, hr, -⟩ := h
    rw [failed] at hr
    cases hr
  | stopped reason =>
    obtain ⟨u, hr⟩ := h
    rw [failed] at hr
    cases hr
    exact explained.inBounds s.ofChannel_flow

theorem Framing.inBounds_of_read {f : Framing} (failed : f.read s = .error why t) :
    why.inBounds = true := by
  refine (f.read_meets s).inBounds (fun b e h => ?_) (f.cut_explained s.flow) failed
  obtain ⟨fault, rfl⟩ := Codec.serialization_of_decode h
  rfl

theorem inBounds_of_gather {rounds missing : Nat} {got : Bytes} (enough : missing ≤ rounds)
    (failed : gather rounds missing got s = .error why t) : why.inBounds = true := by
  rcases gather_cases rounds missing got s enough with ⟨u, hg, -⟩ | ⟨reason, u, hg, -, hs⟩
  · rw [failed] at hg
    cases hg
  · rw [failed] at hg
    cases hg
    exact inBounds_of_flow hs

theorem inBounds_of_pull {most : Nat} (failed : pull most s = .error why t) :
    why.inBounds = true := by
  rcases pull_cases most s with ⟨b, u, hp, -⟩ | ⟨u, hp, -⟩ | ⟨reason, u, hp, hf⟩ <;>
    rw [failed] at hp <;> cases hp
  exact inBounds_of_flow (by rw [hf]; rfl)

theorem inBounds_of_readToEnd {limit : Option Nat}
    (failed : readToEnd limit s = .error why t) : why.inBounds = true := by
  have hl := s.flow_length_le
  rcases drain_cases limit (s.available + 1) [] s (by omega) (by simp) with
    ⟨u, hd, -⟩ | ⟨max, lost, u, -, hd, -⟩ | ⟨reason, u, hd, hs, -⟩ <;>
    rw [BufferedChannel.readToEnd, hd] at failed <;> cases failed
  · rfl
  · exact inBounds_of_flow hs

theorem inBounds_of_readExact {n : Nat} (failed : readExact n s = .error why t) :
    why.inBounds = true := by
  rw [readExact] at failed
  cases hu : readUpTo n s with
  | ok data u =>
    rw [bind_ok hu] at failed
    by_cases hn : data.length < n
    · simp only [hn, if_true, branch_apply, fail_apply, EStateM.Result.error.injEq] at failed
      rw [← failed.1]
      rfl
    · simp [hn] at failed
  | error reason u =>
    rw [bind_error hu] at failed
    cases failed
    exact inBounds_of_gather (Nat.le_refl n) hu

theorem inBounds_of_readUntil {marker : Bytes} {limit : Option Nat}
    (failed : readUntil marker limit s = .error why t) : why.inBounds = true := by
  by_cases ne : marker = []
  · rw [ne, readUntil_nil] at failed
    cases failed
    rfl
  · exact (readUntil_meets ne limit s).inBounds (fun b e h => by cases h)
      (Cut.explained_atMarker marker limit s.flow) failed

theorem QueueCall.inBounds_of_run {k : QueueCall} (failed : k.run s = .error why t) :
    why.inBounds = true := by
  cases k with
  | pull most => exact inBounds_of_pull failed
  | pullChunk =>
    rw [run, pullChunk_apply] at failed
    exact inBounds_of_pull failed
  | handBack data => cases failed
  | readUpTo n => exact inBounds_of_gather (Nat.le_refl n) (of_map_error failed)
  | readExact n => exact inBounds_of_readExact (of_map_error failed)
  | readUntil marker limit => exact inBounds_of_readUntil failed
  | readToEnd limit => exact inBounds_of_readToEnd (of_map_error failed)

theorem ReadCall.inBounds_of_run {k : ReadCall} (failed : k.run s = .error why t) :
    why.inBounds = true := by
  cases k with
  | message f => exact Framing.inBounds_of_read (of_map_error failed)
  | bytes k => exact QueueCall.inBounds_of_run (of_map_error failed)

end

namespace ReadCall

/-- Whatever a channel brings, and whatever was buffered, reads never take a difference below zero,
an index outside a token, or more bytes than are buffered, and they never find a header that cannot
be read. -/
theorem each_in_bounds (calls : List ReadCall) (s : BufferedChannel) :
    each (calls.map runChecked) s = each (calls.map run) s ∧
      ∀ why, .error why ∈ (each (calls.map run) s).1 → why.inBounds = true := by
  refine ⟨by rw [funext runChecked_eq], fun why mem => ?_⟩
  induction calls generalizing s with
  | nil => cases mem
  | cons k later ih =>
    obtain first | mem := List.mem_cons.mp mem
    · cases hk : k.run s with
      | ok a t =>
        rw [hk] at first
        cases first
      | error e t =>
        rw [hk] at first
        cases first
        exact inBounds_of_run hk
    · exact ih _ mem

/-- The first token goes wrong in its second byte, and the transport fails inside the header that is
read next. -/
theorem each_in_bounds_of_cut_token :
    let s := ofChannel (.ofTransport ⟨[.ready [7], .yields, .ready [8, 3],
      .fails ⟨.timedOut, "late"⟩], false, [], [], [], [], 0, 0⟩) 4
    let calls := [message (.negotiated [7, 9] (by decide) (.lengthPrefixed .standard)),
      message (.lengthPrefixed .standard)]
    (each (calls.map run) s).1 =
        [.error (.failure (.mismatch (.unexpectedByte 8 1))), .error (.failure (.io "late"))] ∧
      (Stop.failure (.io "late")).inBounds = true := by
  intro s calls
  have results : (each (calls.map run) s).1 =
      [.error (.failure (.mismatch (.unexpectedByte 8 1))), .error (.failure (.io "late"))] := rfl
  exact ⟨results, (each_in_bounds calls s).2 _ (by rw [results]; exact .tail _ (.head _))⟩

end ReadCall

end FramedMessaging
