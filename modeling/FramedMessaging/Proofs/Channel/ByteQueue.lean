import FramedMessaging.Proofs.Channel.Reachable
import FramedMessaging.Proofs.Channel.ReadAhead
import FramedMessaging.Proofs.Framing.Read
set_option autoImplicit false

namespace FramedMessaging

open Operation BufferedChannel

namespace QueueCall

def returned : QueueCall → Bytes
  | handBack data => data
  | _ => []

def taken : QueueCall → Option Bytes → Bytes
  | _, none => []
  | readUntil marker _, some payload => payload ++ marker
  | _, some b => b

/-- What a queue of bytes may answer to a call, with the queue after it. A pull without a size asks
for `chunk` bytes. The size of what is pulled and the bytes that are lost behind a limit are left
open. -/
inductive Answers (chunk : Nat) :
    QueueCall → Bytes → Except Stop (Option Bytes) → Bytes → Prop where
  | dry (most : Nat) : Answers chunk (.pull most) [] (.ok none) []
  | pulled {most : Nat} {b : Bytes} (ne : b ≠ []) (le : b.length ≤ max most 1) (rest : Bytes) :
      Answers chunk (.pull most) (b ++ rest) (.ok (some b)) rest
  | chunk {q rest : Bytes} {answer : Except Stop (Option Bytes)}
      (pull : Answers chunk (.pull chunk) q answer rest) : Answers chunk .pullChunk q answer rest
  | handedBack (data q : Bytes) : Answers chunk (.handBack data) q (.ok none) (data ++ q)
  | upTo (n : Nat) (q : Bytes) : Answers chunk (.readUpTo n) q (.ok (some (q.take n))) (q.drop n)
  | exactly {n : Nat} {q : Bytes} (le : n ≤ q.length) :
      Answers chunk (.readExact n) q (.ok (some (q.take n))) (q.drop n)
  | short {n : Nat} {q : Bytes} (lt : q.length < n) :
      Answers chunk (.readExact n) q (.error (.failure (.framing (.endedInBody q.length n)))) []
  | whole {limit : Option Nat} {q : Bytes} (fits : ∀ max, limit = some max → q.length ≤ max) :
      Answers chunk (.readToEnd limit) q (.ok (some q)) []
  | tooMuch {max : Nat} {lost rest : Bytes} (lt : max < (lost ++ rest).length) :
      Answers chunk (.readToEnd (some max)) (lost ++ rest)
        (.error (.failure (.framing (.messageTooLarge max)))) rest
  | found {marker payload rest : Bytes} {limit : Option Nat}
      (first : Bytes.find (payload ++ marker ++ rest) marker 0 = some payload.length)
      (fits : ∀ max, limit = some max → payload.length ≤ max) :
      Answers chunk (.readUntil marker limit) (payload ++ marker ++ rest) (.ok (some payload)) rest
  | nothing {marker : Bytes} (ne : marker ≠ []) (limit : Option Nat) :
      Answers chunk (.readUntil marker limit) [] (.ok none) []
  | markerless (limit : Option Nat) (q : Bytes) :
      Answers chunk (.readUntil [] limit) q (.error (.failure (.framing .emptyMarker))) q
  | tooFar {marker q : Bytes} {max size : Nat} (ne : marker ≠ [])
      (size_eq : size = (q.find marker 0).getD (q.length - (marker.length - 1)))
      (lt : max < size) :
      Answers chunk (.readUntil marker (some max)) q
        (.error (.failure (.framing (.messageTooLarge max)))) q
  | unmarked {marker q : Bytes} {limit : Option Nat} (ne : marker ≠ [])
      (absent : q.find marker 0 = none) (nonempty : q ≠ [])
      (fits : ∀ max, limit = some max → q.length - (marker.length - 1) ≤ max) :
      Answers chunk (.readUntil marker limit) q
        (.error (.failure (.framing (.endedBeforeMarker q.length)))) q

inductive Serves (chunk : Nat) :
    List QueueCall → Bytes → List (Except Stop (Option Bytes)) → Bytes → Prop where
  | nil (q : Bytes) : Serves chunk [] q [] q
  | cons {k : QueueCall} {later : List QueueCall} {q q' rest : Bytes}
      {answer : Except Stop (Option Bytes)} {answers : List (Except Stop (Option Bytes))}
      (first : Answers chunk k q answer q') (then_ : Serves chunk later q' answers rest) :
      Serves chunk (k :: later) q (answer :: answers) rest

/-- The queue before some calls, from what each of them was given and the queue after them. -/
def before : List (QueueCall × Option Bytes) → Bytes → Bytes
  | [], q => q
  | (k, given) :: later, q => (k.taken given ++ before later q).drop k.returned.length

end QueueCall

namespace BufferedChannel

open FramedMessaging.Flow

theorem chunkSize_relation : ReadRelation fun s t => t.chunkSize = s.chunkSize where
  refl _ := rfl
  trans hst htu := htu.trans hst
  fetch most s := by
    unfold fetch
    by_cases he : s.atEnd = true
    · simp [he]
    · simp only [he, onChannel]
      cases Channel.await most s.channel with
      | error e c => rfl
      | ok data c => cases data <;> rfl
  readAhead _ _ := rfl

end BufferedChannel

namespace QueueCall

variable {s : BufferedChannel}

theorem openScript_run (hs : s.OpenScript) (k : QueueCall) : (final (k.run s)).OpenScript := by
  refine ⟨?_, (k.respects kept_relation s hs.channel).openScript hs.channel⟩
  have reachable := hs.reachable.call (.read (.bytes k))
  rwa [Call.after, ReadCall.run, final_map] at reachable

/-- A call that succeeds exchanges what it puts in front of the queue for what it takes off. -/
theorem Answers.balance {chunk : Nat} {k : QueueCall} {q rest : Bytes} {given : Option Bytes}
    (h : Answers chunk k q (.ok given) rest) : k.returned ++ q = k.taken given ++ rest := by
  cases h with
  | chunk pull => cases pull <;> rfl
  | upTo n => exact (List.take_append_drop n q).symm
  | exactly le => exact (List.take_append_drop _ q).symm
  | whole fits => exact (List.append_nil q).symm
  | _ => rfl

theorem Serves.before_eq {chunk : Nat} {calls : List QueueCall} {q rest : Bytes}
    {answers : List (Except Stop (Option Bytes))} (h : Serves chunk calls q answers rest)
    {given : List (Option Bytes)} (all : answers = given.map .ok) :
    before (calls.zip given) rest = q := by
  induction h generalizing given with
  | nil q => rfl
  | @cons k later q q' rest answer answers first then_ ih =>
    cases given with
    | nil => cases all
    | cons g given =>
      obtain ⟨rfl, hlater⟩ := List.cons.inj all
      rw [List.zip_cons_cons, before, ih hlater, ← first.balance, List.drop_left]

theorem answers_atMarker (chunk : Nat) {marker : Bytes} (ne : marker ≠ []) (limit : Option Nat)
    (q : Bytes) :
    match Cut.atMarker marker limit ⟨q, .ended⟩ with
    | .payload body rest => Answers chunk (.readUntil marker limit) q (.ok (some body)) rest
    | .ended => Answers chunk (.readUntil marker limit) q (.ok none) []
    | .stopped why => Answers chunk (.readUntil marker limit) q (.error why) q := by
  unfold Cut.atMarker
  dsimp only
  cases hf : q.find marker 0 with
  | some p =>
    dsimp only
    obtain ⟨hc, fits⟩ | ⟨max, rfl, hm, hc⟩ :=
      Cut.within_cases limit p (.payload (q.take p) (q.drop (p + marker.length)))
    · have ho := ((Bytes.find_eq_some_iff ne).mp hf).2.1
      have hl : (q.take p).length = p := by
        have hb := ho.bound ne
        rw [List.length_take]
        omega
      have hq := ho.split
      -- The queue is split at the marker, and the answer is stated for the parts.
      have found : Answers chunk (.readUntil marker limit)
          (q.take p ++ marker ++ q.drop (p + marker.length)) (.ok (some (q.take p)))
          (q.drop (p + marker.length)) := .found (by rw [hq, hf, hl]) (by rwa [hl])
      rw [hq] at found
      rw [hc]
      exact found
    · rw [hc]
      exact .tooFar ne (by rw [hf]; rfl) hm
  | none =>
    dsimp only
    rw [Flow.short_of_ended rfl]
    obtain ⟨hc, fits⟩ | ⟨max, rfl, hm, hc⟩ := Cut.within_cases limit
      (q.length - (marker.length - 1))
      (if q = [] then .ended else .failed (.framing (.endedBeforeMarker q.length)))
    · rw [hc]
      by_cases hq : q = []
      · rw [if_pos hq, hq]
        exact .nothing ne limit
      · rw [if_neg hq]
        exact .unmarked ne hf hq fits
    · rw [hc]
      exact .tooFar ne (by rw [hf]; rfl) hm

def Right (s : BufferedChannel) (k : QueueCall) : Prop :=
  Answers s.chunkSize k s.content (outcome (k.run s)) (final (k.run s)).content

section

variable (hs : s.OpenScript)

include hs

theorem right_of_run {k : QueueCall} {r : EStateM.Result Stop BufferedChannel (Option Bytes)}
    {rest : Bytes} (hrun : k.run s = r) (left : (final r).flow = ⟨rest, .ended⟩)
    (answers : Answers s.chunkSize k s.content (outcome r) rest) : Right s k := by
  have hf := (openScript_run hs k).flow_eq
  rw [hrun, left] at hf
  rw [Right, hrun, show (final r).content = rest from (congrArg Flow.bytes hf).symm]
  exact answers

theorem content_of_behind {b : Bytes} {w : Flow} (h : s.flow = w.behind b) :
    s.content = b ++ w.bytes ∧ w = ⟨w.bytes, .ended⟩ := by
  rw [hs.flow_eq] at h
  exact ⟨congrArg Flow.bytes h, congrArg (Flow.mk w.bytes) (congrArg Flow.finish h).symm⟩

theorem right_pull (most : Nat) : Right s (.pull most) := by
  rcases pull_cases most s with ⟨b, t, hp, ne, le, hf⟩ | ⟨t, hp, hf, hf'⟩ | ⟨why, t, -, hf⟩
  · have hrun : (pull most).run s = .ok (some b) t := hp
    obtain ⟨hc, ht⟩ := content_of_behind hs hf
    refine right_of_run hs hrun ht ?_
    rw [hc]
    exact .pulled ne le t.flow.bytes
  · have hrun : (pull most).run s = .ok none t := hp
    rw [hs.flow_eq] at hf
    have hc : s.content = [] := congrArg Flow.bytes hf
    refine right_of_run hs hrun hf' ?_
    rw [hc]
    exact .dry most
  · rw [hs.flow_eq] at hf
    cases congrArg Flow.finish hf

theorem readUpTo_eq (n : Nat) :
    ∃ t, BufferedChannel.readUpTo n s = .ok (s.content.take n) t ∧
      t.flow = ⟨s.content.drop n, .ended⟩ := by
  rcases gather_cases n n [] s (Nat.le_refl n) with ⟨t, hg, -, ht⟩ | ⟨why, t, -, -, hw⟩
  · rw [hs.flow_eq] at hg ht
    exact ⟨t, hg, ht⟩
  · rw [hs.flow_eq] at hw
    cases hw

theorem right_readUpTo (n : Nat) : Right s (.readUpTo n) := by
  obtain ⟨t, hr, ht⟩ := readUpTo_eq hs n
  have hrun : (readUpTo n).run s = .ok (some (s.content.take n)) t := by rw [run, map_apply, hr]
  exact right_of_run hs hrun ht (.upTo n s.content)

theorem right_readExact (n : Nat) : Right s (.readExact n) := by
  obtain ⟨t, hr, ht⟩ := readUpTo_eq hs n
  have hrun : (readExact n).run s =
      if s.content.length < n then .error (.failure (.framing (.endedInBody s.content.length n))) t
      else .ok (some (s.content.take n)) t := by
    rw [run, map_apply, BufferedChannel.readExact, bind_ok hr]
    have hl : (s.content.take n).length < n ↔ s.content.length < n := by
      rw [List.length_take]
      omega
    by_cases hn : s.content.length < n
    · simp only [hn, if_true, branch_apply, fail_apply, List.take_of_length_le (Nat.le_of_lt hn)]
    · simp only [hn, hl, if_false, branch_apply, pure_apply]
  by_cases hn : s.content.length < n
  · rw [if_pos hn] at hrun
    rw [List.drop_of_length_le (Nat.le_of_lt hn)] at ht
    exact right_of_run hs hrun ht (.short hn)
  · rw [if_neg hn] at hrun
    exact right_of_run hs hrun ht (.exactly (Nat.not_lt.mp hn))

theorem right_readToEnd (limit : Option Nat) : Right s (.readToEnd limit) := by
  have hl := s.flow_length_le
  rcases drain_cases limit (s.available + 1) [] s (by omega) (by simp) with
    ⟨t, hd, -, ht, fits⟩ | ⟨max, lost, t, rfl, hd, ht, hm⟩ | ⟨why, t, -, hw, -⟩
  · have hrun : (readToEnd limit).run s = .ok (some s.content) t := by
      rw [run, map_apply, BufferedChannel.readToEnd, hd, hs.flow_eq, List.nil_append]
    rw [hs.flow_eq] at fits
    exact right_of_run hs hrun ht (.whole fits)
  · have hrun : (readToEnd (some max)).run s =
        .error (.failure (.framing (.messageTooLarge max))) t := by
      rw [run, map_apply, BufferedChannel.readToEnd, hd]
    rw [hs.flow_eq, List.nil_append] at hm
    obtain ⟨hc, hf⟩ := content_of_behind hs ht
    refine right_of_run hs hrun hf ?_
    rw [hc] at hm ⊢
    exact .tooMuch hm
  · rw [hs.flow_eq] at hw
    cases hw

theorem right_readUntil (marker : Bytes) (limit : Option Nat) :
    Right s (.readUntil marker limit) := by
  by_cases ne : marker = []
  · subst ne
    have hrun : (readUntil [] limit).run s = .error (.failure (.framing .emptyMarker)) s :=
      readUntil_nil limit s
    exact right_of_run hs hrun hs.flow_eq (.markerless limit s.content)
  have hm : Meets .ok s.flow.finish ((readUntil marker limit).run s)
      (Cut.atMarker marker limit s.flow) := readUntil_meets ne limit s
  have ha := answers_atMarker s.chunkSize ne limit s.content
  rw [hs.flow_eq] at hm
  revert hm ha
  cases Cut.atMarker marker limit ⟨s.content, .ended⟩ with
  | payload body rest =>
    rintro ⟨t, hrun, ht⟩ ha
    exact right_of_run hs hrun ht ha
  | ended =>
    rintro ⟨t, hrun, ht⟩ ha
    exact right_of_run hs hrun ht ha
  | stopped why =>
    rintro ⟨t, hrun⟩ ha
    have hscan := hrun.symm.trans (readUntil_eq_scan ne limit s)
    have ht : t.flow = ⟨s.content, .ended⟩ := by
      rw [flow_of_scan_error ne (by rw [hs.flow_eq]) hscan.symm, hs.flow_eq]
    exact right_of_run hs hrun ht ha

theorem right_handBack (data : Bytes) : Right s (.handBack data) := by
  have hrun : (handBack data).run s = .ok none (s.handBack data) := rfl
  refine right_of_run hs hrun ?_ (.handedBack data s.content)
  rw [final_ok, flow_handBack, hs.flow_eq, Flow.behind]

theorem right (k : QueueCall) : Right s k := by
  cases k with
  | pull most => exact right_pull hs most
  | pullChunk =>
    have hp := right_pull hs s.chunkSize
    simp only [Right, run, ← pullChunk_apply] at hp
    exact .chunk hp
  | handBack data => exact right_handBack hs data
  | readUpTo n => exact right_readUpTo hs n
  | readExact n => exact right_readExact hs n
  | readUntil marker limit => exact right_readUntil hs marker limit
  | readToEnd limit => exact right_readToEnd hs limit

/-- A stream over an open script is a queue of bytes under every sequence of calls. If all calls
succeed, the bytes before them are found again from what the calls were given and what they left. -/
theorem serves_each (calls : List QueueCall) :
    let r := each (calls.map run) s
    r.2.OpenScript ∧ Serves s.chunkSize calls s.content r.1 r.2.content ∧
      ∀ given, r.1 = given.map .ok → before (calls.zip given) r.2.content = s.content := by
  have hserves : (each (calls.map run) s).2.OpenScript ∧
      Serves s.chunkSize calls s.content (each (calls.map run) s).1
        (each (calls.map run) s).2.content := by
    induction calls generalizing s with
    | nil => exact ⟨hs, .nil s.content⟩
    | cons k later ih =>
      have hk := k.respects chunkSize_relation s
      obtain ⟨hopen, hlater⟩ := ih (openScript_run hs k)
      rw [hk] at hlater
      exact ⟨hopen, .cons (right hs k) hlater⟩
  exact ⟨hserves.1, hserves.2, fun given hg => hserves.2.before_eq hg⟩

end

theorem serves_each_past_end :
    let s := ofChannel (.ofScript (.ofSteps [.chunk [1, 2, 3], .idle, .chunk [10, 4, 5]])) 2
    let calls := [.pull 1, .handBack [9], .readUntil [10] none, .readExact 1, .readToEnd (some 1),
      .pull 3, .handBack [7, 8, 6], .pullChunk, .readUpTo 4, .pull 1]
    let given := [some [1], none, some [9, 2, 3], some [4], some [5],
      none, none, some [7, 8], some [6], none]
    s.OpenScript ∧ (each (calls.map run) s).1 = given.map .ok ∧
      before (calls.zip given) (each (calls.map run) s).2.content = s.content := by
  intro s calls given
  have hs : s.OpenScript := ⟨.fresh _ _, ⟨_, rfl⟩, CloseHandle.staysOpen_of_unused⟩
  have hg : (each (calls.map run) s).1 = given.map .ok := by decide +kernel
  exact ⟨hs, hg, (serves_each hs calls).2.2 given hg⟩

end QueueCall

end FramedMessaging
