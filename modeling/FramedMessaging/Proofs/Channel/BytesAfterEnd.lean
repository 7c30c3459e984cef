import FramedMessaging.Proofs.Channel.LateTurns
import FramedMessaging.Proofs.Channel.Reachable
set_option autoImplicit false

namespace FramedMessaging

open Operation

namespace BufferedChannel

variable {α β : Type} {more : List (Turn Bytes)} {s t : BufferedChannel}

def followedBy (more : List (Turn Bytes)) (s : BufferedChannel) : BufferedChannel :=
  { s with channel := s.channel.followedBy more }

@[simp] theorem channel_followedBy (more : List (Turn Bytes)) (s : BufferedChannel) :
    (s.followedBy more).channel = s.channel.followedBy more := rfl

@[simp] theorem readAhead_followedBy (more : List (Turn Bytes)) (s : BufferedChannel) :
    (s.followedBy more).readAhead = s.readAhead := rfl

@[simp] theorem atEnd_followedBy (more : List (Turn Bytes)) (s : BufferedChannel) :
    (s.followedBy more).atEnd = s.atEnd := rfl

def EndsWithin (s : BufferedChannel) : Prop :=
  ∃ turns, s.channel.incoming = .turns turns ∧ (s.atEnd = true ∨ .ready [] ∈ turns)

theorem Unread.endsWithin (h : s.Unread t) (within : s.EndsWithin) : t.EndsWithin := by
  obtain ⟨turns, hi, sooner⟩ := within
  exact ⟨turns, h.incoming.trans hi, h.atEnd ▸ sooner⟩

/-- The operation comes to the same whatever turns a transport has behind the end of the stream, and
it leaves those turns where they are. -/
def Overlooks (more : List (Turn Bytes)) (op : Operation BufferedChannel α) : Prop :=
  ∀ s : BufferedChannel, s.EndsWithin →
    (final (op s)).EndsWithin ∧ op (s.followedBy more) = onState (followedBy more) (op s)

namespace Overlooks

theorem pure (a : α) : Overlooks more (pure a : Operation BufferedChannel α) :=
  fun _ within => ⟨within, rfl⟩

theorem throw (why : Stop) : Overlooks more (throw why : Operation BufferedChannel α) :=
  fun _ within => ⟨within, rfl⟩

theorem fail (e : Failure) : Overlooks more (fail e : Operation BufferedChannel α) :=
  throw (.failure e)

theorem lift (x : Except Failure α) : Overlooks more (lift x : Operation BufferedChannel α) := by
  cases x with
  | ok a => exact pure a
  | error e => exact fail e

theorem bind {x : Operation BufferedChannel α} {f : α → Operation BufferedChannel β}
    (hx : Overlooks more x) (hf : ∀ a, Overlooks more (f a)) : Overlooks more (x >>= f) := by
  intro s within
  obtain ⟨still, same⟩ := hx s within
  cases hs : x s with
  | ok a t =>
    rw [hs] at still same
    rw [bind_ok hs, bind_ok same]
    exact hf a t still
  | error why t =>
    rw [hs] at still same
    rw [bind_error hs, bind_error same]
    exact ⟨still, rfl⟩

theorem fail_bind (e : Failure) (f : α → Operation BufferedChannel β) :
    Overlooks more (Operation.fail e >>= f) :=
  fun _ within => ⟨within, rfl⟩

theorem map {x : Operation BufferedChannel α} (hx : Overlooks more x) (f : α → β) :
    Overlooks more (f <$> x) := by
  rw [map_eq_pure_bind]
  exact hx.bind fun a => pure (f a)

/-- What a continuation does with the state that it gets may not depend on the turns behind the end.
-/
theorem get_bind {f : BufferedChannel → Operation BufferedChannel α}
    (blind : ∀ s : BufferedChannel, f (s.followedBy more) = f s) (hf : ∀ s, Overlooks more (f s)) :
    Overlooks more (get >>= f) := by
  intro s within
  rw [bind_ok (get_apply s), bind_ok (get_apply (s.followedBy more)), blind]
  exact hf s s within

theorem modify_readAhead (g : Accumulator → Accumulator) :
    Overlooks more (modify fun s : BufferedChannel => { s with readAhead := g s.readAhead }) :=
  fun _ within => ⟨within, rfl⟩

theorem onChannel {op : Operation Channel α}
    (keeps : ∀ c, (final (op c)).incoming = c.incoming)
    (same : ∀ {c : Channel} {t : Transport}, c.endpoint = .transport t →
      op (c.followedBy more) = Operation.onState (Channel.followedBy more) (op c)) :
    Overlooks more (onChannel op) := by
  intro s within
  refine ⟨(Unread.onChannel keeps s).endsWithin within, ?_⟩
  obtain ⟨turns, hi, -⟩ := within
  obtain ⟨t, hp, -⟩ := Channel.transport_of_incoming hi
  have h := same hp
  unfold BufferedChannel.onChannel
  rw [channel_followedBy, h]
  cases op s.channel <;> rfl

theorem fetch (most : Nat) : Overlooks more (fetch most) := by
  rintro s ⟨turns, hi, sooner⟩
  obtain ⟨t, hp, rfl⟩ := Channel.transport_of_incoming hi
  unfold BufferedChannel.fetch BufferedChannel.onChannel
  rw [atEnd_followedBy, channel_followedBy]
  cases he : s.atEnd with
  | true => exact ⟨⟨t.readTurns, hi, .inl he⟩, rfl⟩
  | false =>
    -- Either this wait finds the end, and then the flag is set, or the end is still to come.
    have mem := sooner.resolve_left (by simp [he])
    obtain ⟨later, hl, found⟩ := Channel.incoming_await hp mem most
    simp only [Channel.await_followedBy hp more mem, Bool.false_eq_true, if_false]
    cases ha : Channel.await most s.channel with
    | error why c =>
      rw [ha] at hl found
      exact ⟨⟨later, hl, .inr (found.resolve_left (by simp))⟩, rfl⟩
    | ok data c =>
      rw [ha] at hl found
      cases data with
      | none => exact ⟨⟨later, hl, .inl rfl⟩, rfl⟩
      | some b => exact ⟨⟨later, hl, .inr (found.resolve_left (by simp))⟩, rfl⟩

theorem pull (most : Nat) : Overlooks more (pull most) := by
  intro s within
  by_cases empty : s.readAhead.bytes = []
  · rw [pull_of_empty empty, pull_of_empty (s := s.followedBy more) empty]
    exact fetch _ s within
  · rw [pull_of_nonempty empty, pull_of_nonempty (s := s.followedBy more) empty]
    exact ⟨within, rfl⟩

theorem pullChunk : Overlooks more pullChunk :=
  get_bind (fun _ => rfl) fun s => pull s.chunkSize

theorem checkLimit (size : Nat) (limit : Option Nat) : Overlooks more (checkLimit size limit) := by
  unfold BufferedChannel.checkLimit
  cases limit with
  | none => exact pure ()
  | some max =>
    dsimp only
    split
    · exact fail _
    · exact pure ()

theorem gather (rounds missing : Nat) (got : Bytes) :
    Overlooks more (gather rounds missing got) := by
  induction rounds generalizing missing got with
  | zero => exact pure got
  | succ rounds ih =>
    unfold BufferedChannel.gather
    split
    · exact pure got
    · refine get_bind (fun _ => rfl) fun s => (pull _).bind fun data => ?_
      cases data with
      | none => exact pure got
      | some data => exact ih (missing - data.length) (got ++ data)

theorem readUpTo (n : Nat) : Overlooks more (readUpTo n) := gather n n []

theorem readExact (n : Nat) : Overlooks more (readExact n) := by
  refine (readUpTo n).bind fun data => ?_
  split
  · exact fail _
  · exact pure data

theorem readToken (size rounds : Nat) (expected : Bytes) :
    Overlooks more (readToken size rounds expected) := by
  induction rounds generalizing expected with
  | zero => exact pure true
  | succ rounds ih =>
    unfold FramedMessaging.readToken
    split
    · exact pure true
    · refine (pull expected.length).bind fun data => ?_
      cases data with
      | none =>
        dsimp only
        split
        · exact pure false
        · exact fail _
      | some data => exact (lift _).bind fun left => ih left

theorem readBody (f : LengthFraming) : Overlooks more f.readBody := by
  refine (readUpTo _).bind fun digits => ?_
  dsimp only
  split
  · exact pure none
  · split
    · exact fail_bind _ _
    · cases f.header.decode? digits with
      | none => exact fail _
      | some declared =>
        dsimp only
        split
        · exact fail_bind _ _
        · exact (readExact declared).bind fun body => pure (some body)

/-! Loops that may go on as long as something is to come. With more behind the end they may go on
longer, so they are compared with equal rounds first. -/

theorem drain (limit : Option Nat) (rounds : Nat) (got : Bytes) :
    Overlooks more (drain limit rounds got) := by
  induction rounds generalizing got with
  | zero => exact throw .stuck
  | succ rounds ih =>
    refine pullChunk.bind fun data => ?_
    cases data with
    | none => exact pure got
    | some data => exact (checkLimit _ limit).bind fun _ => ih (got ++ data)

theorem takeBuffered (n : Nat) : Overlooks more (takeBuffered n) := by
  intro s within
  unfold BufferedChannel.takeBuffered
  rw [readAhead_followedBy]
  cases s.readAhead.splitTo? n with
  | none => exact ⟨within, rfl⟩
  | some taken => exact ⟨within, rfl⟩

theorem scan (marker : Bytes) (limit : Option Nat) (rounds scanned : Nat) :
    Overlooks more (scan marker limit rounds scanned) := by
  induction rounds generalizing scanned with
  | zero => exact throw .stuck
  | succ rounds ih =>
    refine get_bind (fun _ => rfl) fun s => ?_
    dsimp only
    cases s.readAhead.find marker (scanned - (marker.length - 1)) with
    | some position =>
      refine (checkLimit position limit).bind fun _ => ?_
      refine (takeBuffered position).bind fun payload => ?_
      exact (modify_readAhead (·.advance marker.length)).bind fun _ => pure (some payload)
    | none =>
      refine (checkLimit _ limit).bind fun _ => (fetch s.chunkSize).bind fun data => ?_
      cases data with
      | some data => exact (modify_readAhead (·.extend data)).bind fun _ => ih _
      | none =>
        dsimp only
        split
        · exact pure none
        · exact fail _

end Overlooks

theorem available_followedBy (more : List (Turn Bytes)) (s : BufferedChannel) :
    s.available ≤ (s.followedBy more).available :=
  Nat.add_le_add_left (s.channel.undelivered_followedBy more) s.readAhead.size

/-- More rounds than there are bytes to come change nothing. -/
theorem drain_enough {limit : Option Nat} {rounds extra : Nat} (got : Bytes)
    (enough : s.flow.bytes.length < rounds) :
    drain limit (rounds + extra) got s = drain limit rounds got s := by
  induction rounds generalizing got s with
  | zero => omega
  | succ rounds ih =>
    rw [Nat.succ_add, drain, drain]
    rcases pull_cases s.chunkSize s with
      ⟨b, t, hp, ne, le, hf⟩ | ⟨t, hp, hf, hf'⟩ | ⟨why, t, hp, hf⟩ <;> rw [← pullChunk_apply] at hp
    · have hb := List.length_pos_iff.mpr ne
      have hl : t.flow.bytes.length < rounds := by
        simp only [hf, Flow.bytes_behind, List.length_append] at enough
        omega
      rw [bind_ok hp, bind_ok hp]
      dsimp only
      obtain ⟨hc, -⟩ | ⟨max, -, -, hc⟩ := checkLimit_cases (got ++ b).length limit t
      · rw [bind_ok hc, bind_ok hc]
        exact ih (got ++ b) hl
      · rw [bind_error hc, bind_error hc]
    · rw [bind_ok hp, bind_ok hp]
    · rw [bind_error hp, bind_error hp]

theorem scan_enough {marker : Bytes} {limit : Option Nat} {rounds extra : Nat} (scanned : Nat)
    (enough : s.beyond.bytes.length < rounds) :
    scan marker limit (rounds + extra) scanned s = scan marker limit rounds scanned s := by
  induction rounds generalizing scanned s with
  | zero => omega
  | succ rounds ih =>
    rw [Nat.succ_add, scan, scan, bind_ok (get_apply s), bind_ok (get_apply s)]
    dsimp only
    cases s.readAhead.find marker (scanned - (marker.length - 1)) with
    | some position => rfl
    | none =>
      dsimp only
      obtain ⟨hc, -⟩ | ⟨max, -, -, hc⟩ :=
        checkLimit_cases (s.readAhead.size - (marker.length - 1)) limit s
      · rw [bind_ok hc, bind_ok hc]
        rcases fetch_cases s.chunkSize s with
          ⟨b, t, hp, ne, -, -, hf⟩ | ⟨t, hp, -⟩ | ⟨why, t, hp, -⟩
        · have hb := List.length_pos_iff.mpr ne
          have hl : t.beyond.bytes.length < rounds := by
            simp only [hf, Flow.bytes_behind, List.length_append] at enough
            omega
          rw [bind_ok hp, bind_ok hp]
          exact ih _ hl
        · rw [bind_ok hp, bind_ok hp]
        · rw [bind_error hp, bind_error hp]
      · rw [bind_error hc, bind_error hc]

namespace Overlooks

theorem readToEnd (limit : Option Nat) : Overlooks more (readToEnd limit) := by
  intro s within
  obtain ⟨extra, he⟩ := Nat.exists_eq_add_of_le (available_followedBy more s)
  have enough := s.flow_length_le
  have same : BufferedChannel.drain limit ((s.followedBy more).available + 1) [] s =
      BufferedChannel.readToEnd limit s := by
    rw [he, Nat.add_right_comm]
    exact drain_enough [] (by omega)
  rw [← same]
  exact drain limit _ [] s within

theorem readUntil (marker : Bytes) (limit : Option Nat) :
    Overlooks more (readUntil marker limit) := by
  intro s within
  by_cases ne : marker = []
  · subst ne
    rw [readUntil_nil, readUntil_nil]
    exact ⟨within, rfl⟩
  · obtain ⟨extra, he⟩ := Nat.exists_eq_add_of_le (s.channel.undelivered_followedBy more)
    have enough := s.beyond_length_le
    have same :
        BufferedChannel.scan marker limit ((s.followedBy more).channel.undelivered + 1) 0 s =
          BufferedChannel.readUntil marker limit s := by
      rw [channel_followedBy, he, Nat.add_right_comm, readUntil_eq_scan ne]
      exact scan_enough 0 (by omega)
    rw [← same, readUntil_eq_scan ne]
    exact scan marker limit _ 0 s within

theorem decoded (codec : Codec) (data : Option Bytes) :
    Overlooks more (Framing.decoded codec data) := by
  cases data with
  | none => exact pure none
  | some data => exact (lift _).map some

theorem read (f : Framing) : Overlooks more f.read := by
  induction f with
  | direct f =>
    exact ((readToEnd f.maxSize).bind fun _ => pure _).bind fun _ => decoded _ _
  | lengthPrefixed f => exact (readBody f).bind fun _ => decoded _ _
  | endMarker f => exact (readUntil f.marker f.maxSize).bind fun _ => decoded _ _
  | negotiated token ne inner ih =>
    refine (readToken _ _ token).bind fun came => ?_
    split
    · refine ih.bind fun m => ?_
      cases m with
      | some m => exact pure (some m)
      | none => exact fail _
    · exact pure none

theorem write (data : Bytes) : Overlooks more (BufferedChannel.write data) :=
  onChannel (Channel.incoming_push data) fun transport =>
    Channel.push_followedBy transport more data

theorem flush : Overlooks more BufferedChannel.flush :=
  onChannel Channel.incoming_flush fun transport => Channel.flush_followedBy transport more

theorem shutdown : Overlooks more BufferedChannel.shutdown :=
  onChannel Channel.incoming_shutdown fun transport => Channel.shutdown_followedBy transport more

theorem send (f : Framing) (m : Message) : Overlooks more (f.write m) :=
  (lift _).bind fun frame => (write frame).bind fun _ => flush

theorem after {op : Operation BufferedChannel α} (h : Overlooks more op) (within : s.EndsWithin) :
    (final (op s)).EndsWithin ∧
      final (op (s.followedBy more)) = (final (op s)).followedBy more := by
  obtain ⟨still, same⟩ := h s within
  exact ⟨still, by rw [same, final_onState]⟩

end Overlooks

theorem QueueCall.overlooks (k : QueueCall) : Overlooks more k.run := by
  cases k with
  | pull most => exact .pull most
  | pullChunk => exact .pullChunk
  | handBack data => exact fun s within => ⟨within, rfl⟩
  | readUpTo n => exact (Overlooks.readUpTo n).map some
  | readExact n => exact (Overlooks.readExact n).map some
  | readUntil marker limit => exact .readUntil marker limit
  | readToEnd limit => exact (Overlooks.readToEnd limit).map some

theorem ReadCall.overlooks (k : ReadCall) : Overlooks more k.run := by
  cases k with
  | message f => exact (Overlooks.read f).map Sum.inl
  | bytes k => exact (QueueCall.overlooks k).map Sum.inr

theorem close_followedBy (more : List (Turn Bytes)) (s : BufferedChannel) :
    (s.followedBy more).close = s.close.followedBy more := by
  rw [close, followedBy, followedBy, Channel.close_followedBy]
  rfl

theorem Call.overlooks (k : Call) (within : s.EndsWithin) :
    (k.after s).EndsWithin ∧ k.after (s.followedBy more) = (k.after s).followedBy more := by
  cases k with
  | read k => exact (ReadCall.overlooks k).after within
  | write data => exact (Overlooks.write data).after within
  | send f m => exact (Overlooks.send f m).after within
  | flush => exact Overlooks.flush.after within
  | shutdown => exact Overlooks.shutdown.after within
  | close => exact ⟨(Unread.close s).endsWithin within, s.close_followedBy more⟩

def called (calls : List Call) (s : BufferedChannel) : BufferedChannel :=
  calls.foldl (fun s k => k.after s) s

theorem called_followedBy (within : s.EndsWithin) (calls : List Call) :
    (s.called calls).EndsWithin ∧
      (s.followedBy more).called calls = (s.called calls).followedBy more := by
  induction calls generalizing s with
  | nil => exact ⟨within, rfl⟩
  | cons k later ih =>
    obtain ⟨still, same⟩ := k.overlooks within
    rw [called, called, List.foldl_cons, List.foldl_cons, same]
    exact ih still

end BufferedChannel

end FramedMessaging
