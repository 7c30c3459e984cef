import FramedMessaging.Channel.Buffered
import FramedMessaging.Proofs.Channel.RemainingInput
import FramedMessaging.Proofs.Occurrence
import FramedMessaging.Proofs.Operation
/-!
What is still to come on a buffered channel: its read-ahead, then its channel until an end was seen.
Every read takes its bytes off the front of this flow, so the line between read-ahead and channel
never shows in a result. A search for a marker fetches until it finds one, so what every fetch
leaves as it is a search that finds nothing leaves as it is.
-/
set_option autoImplicit false

namespace FramedMessaging.BufferedChannel

open FramedMessaging.Flow

def beyond (s : BufferedChannel) : Flow := if s.atEnd then dry else s.channel.flow

def flow (s : BufferedChannel) : Flow := s.beyond.behind s.readAhead.bytes

theorem bytes_flow (s : BufferedChannel) :
    s.flow.bytes = s.readAhead.bytes ++ s.beyond.bytes := rfl

theorem finish_flow (s : BufferedChannel) : s.flow.finish = s.beyond.finish := rfl

theorem beyond_length_le (s : BufferedChannel) :
    s.beyond.bytes.length ≤ s.channel.undelivered := by
  unfold beyond
  split
  · simp [dry]
  · exact s.channel.flow_length_le

theorem flow_length_le (s : BufferedChannel) : s.flow.bytes.length ≤ s.available := by
  have h := s.beyond_length_le
  simp only [bytes_flow, List.length_append, available, Accumulator.size]
  omega

@[simp] theorem flow_handBack (data : Bytes) (s : BufferedChannel) :
    (handBack data s).flow = s.flow.behind data :=
  (behind_behind data s.readAhead.bytes s.beyond).symm

@[simp] theorem flow_ofChannel (c : Channel) (chunkSize : Nat) :
    (ofChannel c chunkSize).flow = c.flow := rfl

theorem fetch_cases (most : Nat) (s : BufferedChannel) :
    (∃ b t, fetch most s = .ok (some b) t ∧ b ≠ [] ∧ b.length ≤ max most 1 ∧
      t.readAhead = s.readAhead ∧ s.beyond = t.beyond.behind b) ∨
    (∃ t, fetch most s = .ok none t ∧ t.readAhead = s.readAhead ∧ s.beyond = dry ∧
      t.beyond = dry) ∨
    (∃ why t, fetch most s = .error why t ∧ s.beyond = halted why) := by
  cases he : s.atEnd with
  | true =>
    exact .inr (.inl ⟨s, by simp [fetch, he], rfl, by simp [beyond, he], by simp [beyond, he]⟩)
  | false =>
    simp only [fetch, beyond, he, onChannel, if_false, Bool.false_eq_true]
    rcases s.channel.await_cases most with
      ⟨b, d, ha, ne, le, hf⟩ | ⟨d, ha, hf⟩ | ⟨why, d, ha, hf⟩
    · exact .inl ⟨b, { s with channel := d }, by simp [ha, he], ne, le, rfl, by simpa [he] using hf⟩
    · exact .inr (.inl ⟨{ s with channel := d, atEnd := true }, by simp [ha], rfl, hf, rfl⟩)
    · exact .inr (.inr ⟨why, { s with channel := d }, by simp [ha, he], hf⟩)

theorem of_fetch_some {most : Nat} {s t : BufferedChannel} {b : Bytes}
    (h : fetch most s = .ok (some b) t) :
    s.atEnd = false ∧ Channel.await most s.channel = .ok (some b) t.channel ∧
      t = { s with channel := t.channel } := by
  unfold fetch at h
  cases he : s.atEnd with
  | true => simp [he] at h
  | false =>
    simp only [he, onChannel, Bool.false_eq_true, if_false] at h
    cases hc : Channel.await most s.channel with
    | error why c => simp [hc] at h
    | ok data c =>
      cases data with
      | none => simp [hc] at h
      | some b' =>
        simp only [hc] at h
        cases h
        exact ⟨rfl, rfl, rfl⟩

theorem of_fetch_error {most : Nat} {s t : BufferedChannel} {why : Stop}
    (h : fetch most s = .error why t) :
    s.atEnd = false ∧ Channel.await most s.channel = .error why t.channel ∧
      t = { s with channel := t.channel } := by
  unfold fetch at h
  cases he : s.atEnd with
  | true => simp [he] at h
  | false =>
    simp only [he, onChannel, Bool.false_eq_true, if_false] at h
    cases hc : Channel.await most s.channel with
    | ok data c => cases data <;> simp [hc] at h
    | error why' c =>
      simp only [hc] at h
      cases h
      exact ⟨rfl, rfl, rfl⟩

theorem flow_extend {s t : BufferedChannel} {b : Bytes} (same : t.readAhead = s.readAhead)
    (fetched : s.beyond = t.beyond.behind b) :
    BufferedChannel.flow { t with readAhead := t.readAhead.extend b } = s.flow := by
  rw [flow, flow, fetched, behind_behind, same]
  rfl

theorem takeBuffered_of_le {n : Nat} {s : BufferedChannel} (le : n ≤ s.readAhead.size) :
    takeBuffered n s =
      .ok (s.readAhead.bytes.take n) { s with readAhead := ⟨s.readAhead.bytes.drop n⟩ } := by
  rw [takeBuffered, Accumulator.splitTo?, if_pos le]

theorem pull_of_empty {s : BufferedChannel} (empty : s.readAhead.bytes = []) (most : Nat) :
    pull most s = fetch (max most 1) s := by
  simp [pull, Accumulator.isEmpty, empty]

theorem pull_of_nonempty {s : BufferedChannel} (ne : s.readAhead.bytes ≠ []) (most : Nat) :
    let n := min (max most 1) s.readAhead.size
    pull most s =
      .ok (some (s.readAhead.bytes.take n))
        { s with readAhead := ⟨s.readAhead.bytes.drop n⟩ } := by
  have he : s.readAhead.isEmpty = false := by simpa [Accumulator.isEmpty] using ne
  simp [pull, he, takeBuffered_of_le (Nat.min_le_right _ _)]

theorem pull_cases (most : Nat) (s : BufferedChannel) :
    (∃ b t, pull most s = .ok (some b) t ∧ b ≠ [] ∧ b.length ≤ max most 1 ∧
      s.flow = t.flow.behind b) ∨
    (∃ t, pull most s = .ok none t ∧ s.flow = dry ∧ t.flow = dry) ∨
    (∃ why t, pull most s = .error why t ∧ s.flow = halted why) := by
  by_cases hr : s.readAhead.bytes = []
  · have hb : s.flow = s.beyond := by simp [flow, hr]
    rw [pull_of_empty hr, hb]
    rcases fetch_cases (max most 1) s with
      ⟨b, t, hf, ne, le, ht, hw⟩ | ⟨t, hf, ht, hw, hw'⟩ | ⟨why, t, hf, hw⟩
    · exact .inl ⟨b, t, hf, ne, by omega, by simpa [flow, ht, hr] using hw⟩
    · exact .inr (.inl ⟨t, hf, hw, by simpa [flow, ht, hr] using hw'⟩)
    · exact .inr (.inr ⟨why, t, hf, hw⟩)
  · have hp := List.length_pos_iff.mpr hr
    refine .inl ⟨_, _, pull_of_nonempty hr most, ?_, ?_, ?_⟩
    · simp only [ne_eq, List.take_eq_nil_iff, hr, or_false, Accumulator.size]
      omega
    · simp only [List.length_take]
      omega
    · simp [flow, beyond, behind_behind]

theorem pullChunk_apply (s : BufferedChannel) : pullChunk s = pull s.chunkSize s :=
  Operation.bind_ok rfl

/-- The first bytes to come, or all of them where the stream ends before `missing` bytes came. A
round may bring a single byte, so there have to be as many rounds as bytes. -/
theorem gather_cases (rounds missing : Nat) (got : Bytes) (s : BufferedChannel)
    (enough : missing ≤ rounds) :
    (∃ t, gather rounds missing got s = .ok (got ++ s.flow.bytes.take missing) t ∧
      (missing ≤ s.flow.bytes.length ∨ s.flow.finish = .ended) ∧
      t.flow = ⟨s.flow.bytes.drop missing, s.flow.finish⟩) ∨
    (∃ why t, gather rounds missing got s = .error why t ∧
      s.flow.bytes.length < missing ∧ s.flow.finish = .stopped why) := by
  induction rounds generalizing missing got s with
  | zero =>
    have h0 : missing = 0 := by omega
    subst h0
    exact .inl ⟨s, by simp [gather], by simp, rfl⟩
  | succ rounds ih =>
    by_cases h0 : missing = 0
    · subst h0
      exact .inl ⟨s, by simp [gather], by simp, rfl⟩
    simp only [gather, h0, if_false, Operation.bind_apply, Operation.get_apply]
    rcases pull_cases (min missing s.chunkSize) s with
      ⟨b, t, hp, ne, le, hf⟩ | ⟨t, hp, hf, hf'⟩ | ⟨why, t, hp, hf⟩
    · -- No pull asks for more than is missing, so what comes is all of it wanted.
      have hb := List.length_pos_iff.mpr ne
      have hm : b.length ≤ missing := by omega
      have ht : s.flow.bytes.take missing = b ++ t.flow.bytes.take (missing - b.length) := by
        rw [hf, bytes_behind, List.take_append, List.take_of_length_le hm]
      have hd : s.flow.bytes.drop missing = t.flow.bytes.drop (missing - b.length) := by
        rw [hf, bytes_behind, List.drop_append, List.drop_of_length_le hm, List.nil_append]
      have hl : s.flow.bytes.length = b.length + t.flow.bytes.length := by simp [hf]
      have hs : s.flow.finish = t.flow.finish := by simp [hf]
      simp only [hp, ht, hd, hs, hl, ← List.append_assoc]
      rcases ih (missing - b.length) (got ++ b) t (by omega) with
        ⟨u, hu, hw, hfl⟩ | ⟨why, u, hu, hw, hfl⟩
      · exact .inl ⟨u, hu, hw.imp_left fun hw => by omega, hfl⟩
      · exact .inr ⟨why, u, hu, by omega, hfl⟩
    · refine .inl ⟨t, ?_, ?_, ?_⟩
      · simp [hp, hf, dry]
      · simp [hf, dry]
      · simp [hf, hf', dry]
    · exact .inr ⟨why, t, by simp [hp], by simp [hf, halted]; omega, by simp [hf, halted]⟩

theorem checkLimit_cases (size : Nat) (limit : Option Nat) (s : BufferedChannel) :
    (checkLimit size limit s = .ok () s ∧ ∀ max, limit = some max → size ≤ max) ∨
    (∃ max, limit = some max ∧ max < size ∧
      checkLimit size limit s = .error (.failure (.framing (.messageTooLarge max))) s) := by
  cases limit with
  | none => exact .inl ⟨rfl, fun max h => by cases h⟩
  | some max =>
    by_cases hm : max < size
    · exact .inr ⟨max, rfl, hm, congrFun (if_pos hm) s⟩
    · refine .inl ⟨congrFun (if_neg hm) s, fun max' h => ?_⟩
      cases h
      exact Nat.not_lt.mp hm

/-- All that is to come is read, or it exceeds the limit. Bytes that were read before the limit was
exceeded are lost. -/
theorem drain_cases (limit : Option Nat) (rounds : Nat) (got : Bytes) (s : BufferedChannel)
    (enough : s.flow.bytes.length < rounds) (fits : ∀ max, limit = some max → got.length ≤ max) :
    (∃ t, drain limit rounds got s = .ok (got ++ s.flow.bytes) t ∧ s.flow.finish = .ended ∧
      t.flow = dry ∧ ∀ max, limit = some max → (got ++ s.flow.bytes).length ≤ max) ∨
    (∃ max lost t, limit = some max ∧
      drain limit rounds got s = .error (.failure (.framing (.messageTooLarge max))) t ∧
      s.flow = t.flow.behind lost ∧ max < (got ++ s.flow.bytes).length) ∨
    (∃ why t, drain limit rounds got s = .error why t ∧ s.flow.finish = .stopped why ∧
      ∀ max, limit = some max → (got ++ s.flow.bytes).length ≤ max) := by
  induction rounds generalizing got s with
  | zero => omega
  | succ rounds ih =>
    rw [drain]
    rcases pull_cases s.chunkSize s with
      ⟨b, t, hp, ne, le, hf⟩ | ⟨t, hp, hf, hf'⟩ | ⟨why, t, hp, hf⟩ <;> rw [← pullChunk_apply] at hp
    · have hb := List.length_pos_iff.mpr ne
      have hl : t.flow.bytes.length < rounds := by
        simp only [hf, bytes_behind, List.length_append] at enough
        omega
      rw [Operation.bind_ok hp]
      dsimp only
      -- The limit is checked after a piece was taken, so that piece is lost with those before it.
      obtain ⟨hc, hfit⟩ | ⟨max, rfl, hm, hc⟩ := checkLimit_cases (got ++ b).length limit t
      · rw [Operation.bind_ok hc, hf, bytes_behind, finish_behind, ← List.append_assoc]
        rcases ih (got ++ b) t hl hfit with
          ⟨u, hd, he, hu, hm⟩ | ⟨max, lost, u, rfl, hd, hu, hm⟩ | ⟨why, u, hd, hs, hm⟩
        · exact .inl ⟨u, hd, he, hu, hm⟩
        · exact .inr (.inl ⟨max, b ++ lost, u, rfl, hd, by rw [hu, behind_behind], hm⟩)
        · exact .inr (.inr ⟨why, u, hd, hs, hm⟩)
      · rw [Operation.bind_error hc]
        refine .inr (.inl ⟨max, b, t, rfl, rfl, hf, ?_⟩)
        simp only [hf, bytes_behind, List.length_append] at hm ⊢
        omega
    · rw [Operation.bind_ok hp]
      exact .inl ⟨t, by simp [hf], by rw [hf]; rfl, hf', by simpa [hf] using fits⟩
    · rw [Operation.bind_error hp]
      exact .inr (.inr ⟨why, t, rfl, by rw [hf]; rfl, by simpa [hf] using fits⟩)

theorem readUntil_nil (limit : Option Nat) (s : BufferedChannel) :
    readUntil [] limit s = .error (.failure (.framing .emptyMarker)) s := by
  simp [readUntil]

theorem readUntil_eq_scan {marker : Bytes} (ne : marker ≠ []) (limit : Option Nat)
    (s : BufferedChannel) :
    readUntil marker limit s = scan marker limit (s.channel.undelivered + 1) 0 s :=
  congrFun (if_neg ne) s

open Operation

/-- The second state comes from the first by fetches, each put behind the read-ahead. -/
inductive ReadsOn : BufferedChannel → BufferedChannel → Prop where
  | refl (s : BufferedChannel) : ReadsOn s s
  | fetched {s t u : BufferedChannel} {b : Bytes} (fetch : fetch s.chunkSize s = .ok (some b) t)
      (more : ReadsOn { t with readAhead := t.readAhead.extend b } u) : ReadsOn s u

inductive Searched (marker : Bytes) (u : BufferedChannel) :
    EStateM.Result Stop BufferedChannel (Option Bytes) → Prop where
  | found {payload rest : Bytes} (split : payload ++ marker ++ rest = u.readAhead.bytes) :
      Searched marker u (.ok (some payload) { u with readAhead := ⟨rest⟩ })
  | tooLarge (max : Nat) :
      Searched marker u (.error (.failure (.framing (.messageTooLarge max))) u)
  | nothing {t : BufferedChannel} (fetch : fetch u.chunkSize u = .ok none t) :
      Searched marker u (.ok none t)
  | unmarked {t : BufferedChannel} (fetch : fetch u.chunkSize u = .ok none t) (buffered : Nat) :
      Searched marker u (.error (.failure (.framing (.endedBeforeMarker buffered))) t)
  | stopped {t : BufferedChannel} {why : Stop} (fetch : fetch u.chunkSize u = .error why t) :
      Searched marker u (.error why t)
  | usedUp : Searched marker u (.error .stuck u)

theorem scan_searched {marker : Bytes} (ne : marker ≠ []) (limit : Option Nat)
    (rounds scanned : Nat) (s : BufferedChannel) :
    ∃ u, ReadsOn s u ∧ Searched marker u (scan marker limit rounds scanned s) := by
  induction rounds generalizing scanned s with
  | zero => exact ⟨s, .refl s, .usedUp⟩
  | succ rounds ih =>
    rw [scan, bind_ok (get_apply s)]
    cases hfind : s.readAhead.find marker (scanned - (marker.length - 1)) with
    | some p =>
      have hp := ((Bytes.find_eq_some_iff ne).mp hfind).2.1
      have hb := hp.bound ne
      have hle : p ≤ s.readAhead.size := Nat.le_trans (Nat.le_add_right _ _) hb
      refine ⟨s, .refl s, ?_⟩
      dsimp only
      obtain ⟨hc, -⟩ | ⟨max, -, -, hc⟩ := checkLimit_cases p limit s
      · rw [bind_ok hc, bind_ok (takeBuffered_of_le hle), bind_ok (modify_apply _ _), pure_apply]
        refine .found ?_
        rw [List.drop_drop]
        exact hp.split
      · rw [bind_error hc]
        exact .tooLarge max
    | none =>
      dsimp only
      obtain ⟨hc, -⟩ | ⟨max, -, -, hc⟩ :=
        checkLimit_cases (s.readAhead.size - (marker.length - 1)) limit s
      · rw [bind_ok hc]
        cases hf : fetch s.chunkSize s with
        | error why t =>
          rw [bind_error hf]
          exact ⟨s, .refl s, .stopped hf⟩
        | ok data t =>
          rw [bind_ok hf]
          cases data with
          | some b =>
            -- The fetch is the first step of the reading on; the rounds left do the other ones.
            obtain ⟨u, reads, searched⟩ := ih s.readAhead.size _
            exact ⟨u, .fetched hf reads, searched⟩
          | none =>
            refine ⟨s, .refl s, ?_⟩
            dsimp only
            split
            · exact .nothing hf
            · exact .unmarked hf s.readAhead.size
      · rw [bind_error hc]
        exact ⟨s, .refl s, .tooLarge max⟩

theorem searched_readUntil {marker : Bytes} (ne : marker ≠ []) (limit : Option Nat)
    (s : BufferedChannel) :
    ∃ u, ReadsOn s u ∧ Searched marker u (readUntil marker limit s) := by
  rw [readUntil_eq_scan ne]
  exact scan_searched ne limit (s.channel.undelivered + 1) 0 s

variable {s t u : BufferedChannel}

theorem ReadsOn.flow_eq (h : ReadsOn s u) : u.flow = s.flow := by
  induction h with
  | refl s => rfl
  | @fetched s t u b fetch more ih =>
    rcases fetch_cases s.chunkSize s with
      ⟨b', t', hp, -, -, ht, hw⟩ | ⟨t', hp, -⟩ | ⟨why, t', hp, -⟩ <;> rw [fetch] at hp <;> cases hp
    exact ih.trans (flow_extend ht hw)

theorem flow_of_fetch_none {most : Nat} (h : fetch most s = .ok none t) : t.flow = s.flow := by
  rcases fetch_cases most s with
    ⟨b, t', hp, -⟩ | ⟨t', hp, ht, hw, hw'⟩ | ⟨why, t', hp, -⟩ <;> rw [h] at hp <;> cases hp
  rw [flow, flow, ht, hw, hw']

theorem finish_of_fetch_error {most : Nat} {why : Stop} (h : fetch most s = .error why t) :
    s.flow.finish = .stopped why := by
  rcases fetch_cases most s with
    ⟨b, t', hp, -⟩ | ⟨t', hp, -⟩ | ⟨why', t', hp, hw⟩ <;> rw [h] at hp <;> cases hp
  rw [finish_flow, hw]
  rfl

/-- A search that fails on a stream that ends cleanly leaves all bytes where they are. -/
theorem flow_of_scan_error {marker : Bytes} (ne : marker ≠ []) {limit : Option Nat}
    {rounds scanned : Nat} {why : Stop} (ended : s.flow.finish = .ended)
    (h : scan marker limit rounds scanned s = .error why t) : t.flow = s.flow := by
  obtain ⟨u, reads, searched⟩ := scan_searched ne limit rounds scanned s
  have hu := reads.flow_eq
  rw [h] at searched
  cases searched with
  | tooLarge max => exact hu
  | unmarked fetch buffered => exact (flow_of_fetch_none fetch).trans hu
  | usedUp => exact hu
  | stopped fetch =>
    rw [← hu, finish_of_fetch_error fetch] at ended
    cases ended

end FramedMessaging.BufferedChannel
