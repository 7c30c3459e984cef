import FramedMessaging.Framing
import FramedMessaging.Proofs.Channel.ReadAhead
/-!
Reads touch a channel by fetching only. So a relation between states that holds across a fetch and
across any change of the read-ahead holds across every read. Reads that do not look for a marker or
an end touch a stream by pulling only, and a relation that holds across a pull holds across them.
-/
set_option autoImplicit false

namespace FramedMessaging

open Operation BufferedChannel

structure PullRelation (R : BufferedChannel → BufferedChannel → Prop) : Prop where
  refl : ∀ s, R s s
  trans : ∀ {s t u}, R s t → R t u → R s u
  pull : ∀ most, Respects R (BufferedChannel.pull most)

structure ReadRelation (R : BufferedChannel → BufferedChannel → Prop) : Prop where
  refl : ∀ s, R s s
  trans : ∀ {s t u}, R s t → R t u → R s u
  fetch : ∀ most, Respects R (BufferedChannel.fetch most)
  readAhead : ∀ s a, R s { s with readAhead := a }

variable {R : BufferedChannel → BufferedChannel → Prop} {α β : Type}

namespace PullRelation

theorem pure (r : PullRelation R) (a : α) : Respects R (pure a : Operation BufferedChannel α) :=
  Respects.pure r.refl a

theorem fail (r : PullRelation R) (e : Failure) :
    Respects R (fail e : Operation BufferedChannel α) := Respects.fail r.refl e

theorem lift (r : PullRelation R) (x : Except Failure α) :
    Respects R (lift x : Operation BufferedChannel α) := Respects.lift r.refl x

theorem bind (r : PullRelation R) {x : Operation BufferedChannel α}
    {f : α → Operation BufferedChannel β} (hx : Respects R x) (hf : ∀ a, Respects R (f a)) :
    Respects R (x >>= f) := Respects.bind (R := R) r.trans hx hf

theorem fail_bind (r : PullRelation R) (e : Failure) (f : α → Operation BufferedChannel β) :
    Respects R (Operation.fail e >>= f) := r.refl

theorem gather (r : PullRelation R) (rounds missing : Nat) (got : Bytes) :
    Respects R (gather rounds missing got) := by
  induction rounds generalizing missing got with
  | zero => exact r.pure got
  | succ rounds ih =>
    unfold BufferedChannel.gather
    by_cases h : missing = 0
    · simpa [h] using r.pure got
    · simp only [h, if_false]
      refine r.bind r.refl fun s => r.bind (r.pull (min missing s.chunkSize)) fun data => ?_
      cases data with
      | none => exact r.pure got
      | some data => exact ih (missing - data.length) (got ++ data)

theorem readUpTo (r : PullRelation R) (n : Nat) : Respects R (readUpTo n) := r.gather n n []

theorem readExact (r : PullRelation R) (n : Nat) : Respects R (readExact n) := by
  refine r.bind (r.readUpTo n) fun data => ?_
  split
  · exact r.fail _
  · exact r.pure data

theorem readToken (r : PullRelation R) (size rounds : Nat) (expected : Bytes) :
    Respects R (readToken size rounds expected) := by
  induction rounds generalizing expected with
  | zero => exact r.pure true
  | succ rounds ih =>
    unfold FramedMessaging.readToken
    by_cases h : expected = []
    · simpa [h] using r.pure true
    · simp only [h, if_false]
      refine r.bind (r.pull expected.length) fun data => ?_
      cases data with
      | none =>
        dsimp only
        split
        · exact r.pure false
        · exact r.fail _
      | some data => exact r.bind (r.lift _) fun left => ih left

theorem readBody (r : PullRelation R) (f : LengthFraming) : Respects R f.readBody := by
  refine r.bind (r.readUpTo _) fun digits => ?_
  dsimp only
  split
  · exact r.pure none
  · split
    · exact r.fail_bind _ _
    · cases f.header.decode? digits with
      | none => exact r.fail _
      | some declared =>
        dsimp only
        split
        · exact r.fail_bind _ _
        · exact r.bind (r.readExact declared) fun body => r.pure (some body)

theorem decoded (r : PullRelation R) (codec : Codec) (data : Option Bytes) :
    Respects R (Framing.decoded codec data) := by
  cases data with
  | none => exact r.pure none
  | some data =>
    intro s
    simp only [Framing.decoded, map_apply]
    cases codec.decode data with
    | ok m => exact r.refl s
    | error e => exact r.refl s

theorem lengthPrefixed (r : PullRelation R) (f : LengthFraming) :
    Respects R (Framing.lengthPrefixed f).read :=
  r.bind (r.readBody f) fun _ => r.decoded _ _

theorem negotiated (r : PullRelation R) {token : Bytes} (ne : token ≠ []) {inner : Framing}
    (hi : Respects R inner.read) : Respects R (Framing.negotiated token ne inner).read := by
  refine r.bind (r.readToken _ _ _) fun came => ?_
  split
  · refine r.bind hi fun m => ?_
    cases m with
    | some m => exact r.pure (some m)
    | none => exact r.fail _
  · exact r.pure none

end PullRelation

namespace ReadRelation

theorem pull (r : ReadRelation R) (most : Nat) : Respects R (pull most) := by
  intro s
  by_cases h : s.readAhead.bytes = []
  · rw [pull_of_empty h]
    exact r.fetch (max most 1) s
  · rw [pull_of_nonempty h]
    exact r.readAhead s _

theorem pulls (r : ReadRelation R) : PullRelation R := ⟨r.refl, r.trans, r.pull⟩

theorem pullChunk (r : ReadRelation R) : Respects R pullChunk :=
  r.pulls.bind r.refl fun s => r.pull s.chunkSize

theorem checkLimit (r : ReadRelation R) (size : Nat) (limit : Option Nat) :
    Respects R (checkLimit size limit) := by
  unfold BufferedChannel.checkLimit
  cases limit with
  | none => exact r.pulls.pure ()
  | some max =>
    by_cases h : max < size
    · simpa [h] using r.pulls.fail (.framing (.messageTooLarge max))
    · simpa [h] using r.pulls.pure ()

theorem drain (r : ReadRelation R) (limit : Option Nat) (rounds : Nat) (got : Bytes) :
    Respects R (drain limit rounds got) := by
  induction rounds generalizing got with
  | zero => exact r.refl
  | succ rounds ih =>
    refine r.pulls.bind r.pullChunk fun data => ?_
    cases data with
    | none => exact r.pulls.pure got
    | some data =>
      exact r.pulls.bind (r.checkLimit (got ++ data).length limit) fun _ => ih (got ++ data)

theorem readToEnd (r : ReadRelation R) (limit : Option Nat) : Respects R (readToEnd limit) :=
  fun s => r.drain limit (s.available + 1) [] s

theorem readsOn (r : ReadRelation R) {s u : BufferedChannel} (h : ReadsOn s u) : R s u := by
  induction h with
  | refl s => exact r.refl s
  | @fetched s t u b fetch more ih =>
    have hf := r.fetch s.chunkSize s
    rw [fetch, final_ok] at hf
    exact r.trans (r.trans hf (r.readAhead t _)) ih

theorem searched (r : ReadRelation R) {marker : Bytes} {u : BufferedChannel}
    {result : EStateM.Result Stop BufferedChannel (Option Bytes)}
    (h : Searched marker u result) : R u (final result) := by
  have hf := r.fetch u.chunkSize u
  cases h with
  | found split => exact r.readAhead u _
  | tooLarge max => exact r.refl u
  | nothing fetch => rwa [fetch] at hf
  | unmarked fetch buffered => rwa [fetch] at hf
  | stopped fetch => rwa [fetch] at hf
  | usedUp => exact r.refl u

theorem readUntil (r : ReadRelation R) (marker : Bytes) (limit : Option Nat) :
    Respects R (readUntil marker limit) := by
  intro s
  by_cases ne : marker = []
  · rw [ne, readUntil_nil]
    exact r.refl s
  · obtain ⟨u, reads, searched⟩ := searched_readUntil ne limit s
    exact r.trans (r.readsOn reads) (r.searched searched)

theorem read (r : ReadRelation R) (f : Framing) : Respects R f.read := by
  induction f with
  | direct f =>
    exact r.pulls.bind (r.pulls.bind (r.readToEnd f.maxSize) fun _ => r.pulls.pure _)
      fun _ => r.pulls.decoded _ _
  | lengthPrefixed f => exact r.pulls.lengthPrefixed f
  | endMarker f => exact r.pulls.bind (r.readUntil f.marker f.maxSize) fun _ => r.pulls.decoded _ _
  | negotiated token ne inner ih => exact r.pulls.negotiated ne ih

end ReadRelation

inductive QueueCall where
  | pull (most : Nat)
  | pullChunk
  | handBack (data : Bytes)
  | readUpTo (n : Nat)
  | readExact (n : Nat)
  | readUntil (marker : Bytes) (limit : Option Nat)
  | readToEnd (limit : Option Nat)
  deriving DecidableEq, Repr

def QueueCall.run : QueueCall → Operation BufferedChannel (Option Bytes)
  | pull most => BufferedChannel.pull most
  | pullChunk => BufferedChannel.pullChunk
  | handBack data => fun s => .ok none (s.handBack data)
  | readUpTo n => some <$> BufferedChannel.readUpTo n
  | readExact n => some <$> BufferedChannel.readExact n
  | readUntil marker limit => BufferedChannel.readUntil marker limit
  | readToEnd limit => some <$> BufferedChannel.readToEnd limit

inductive ReadCall where
  | message (f : Framing)
  | bytes (k : QueueCall)

def ReadCall.run : ReadCall → Operation BufferedChannel (Option Message ⊕ Option Bytes)
  | message f => .inl <$> f.read
  | bytes k => .inr <$> k.run

theorem QueueCall.respects (r : ReadRelation R) (k : QueueCall) : Respects R k.run := by
  intro s
  cases k with
  | pull most => exact r.pull most s
  | pullChunk => exact r.pullChunk s
  | handBack data => exact r.readAhead s _
  | readUpTo n =>
    rw [run, final_map]
    exact r.pulls.readUpTo n s
  | readExact n =>
    rw [run, final_map]
    exact r.pulls.readExact n s
  | readUntil marker limit => exact r.readUntil marker limit s
  | readToEnd limit =>
    rw [run, final_map]
    exact r.readToEnd limit s

theorem ReadCall.respects (r : ReadRelation R) (k : ReadCall) : Respects R k.run := by
  intro s
  cases k with
  | message f =>
    rw [run, final_map]
    exact r.read f s
  | bytes k =>
    rw [run, final_map]
    exact k.respects r s

end FramedMessaging
