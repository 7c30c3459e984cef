import FramedMessaging.Proofs.Channel.ReadAhead
import FramedMessaging.Proofs.Framing.OneShotRead
import FramedMessaging.Proofs.Occurrence
set_option autoImplicit false

namespace FramedMessaging

open Operation BufferedChannel

variable {α : Type}

/-- The read came to what the cut says, with `out` made of the payload. Nothing is said about the
state that a stopped read leaves. -/
def Meets (out : Bytes → Except Failure α) (finish : Finish)
    (r : EStateM.Result Stop BufferedChannel (Option α)) : Cut → Prop
  | .payload b rest => ∃ t, r = lift ((out b).map some) t ∧ t.flow = ⟨rest, finish⟩
  | .ended => ∃ t, r = .ok none t ∧ t.flow = .dry
  | .stopped why => ∃ t, r = .error why t

variable {out : Bytes → Except Failure α} {finish : Finish} {c : Cut} {s : BufferedChannel}

theorem meets_payload {body rest : Bytes} (h : s.flow = ⟨rest, finish⟩) :
    Meets .ok finish (.ok (some body) s) (.payload body rest) := ⟨s, rfl, h⟩

theorem meets_ended (h : s.flow = .dry) : Meets out finish (.ok none s) .ended := ⟨s, rfl, h⟩

theorem meets_stopped (why : Stop) : Meets out finish (.error why s) (.stopped why) := ⟨s, rfl⟩

theorem meets_within {limit : Option Nat} {size : Nat} {k : Operation BufferedChannel (Option α)}
    (h : (∀ max, limit = some max → size ≤ max) → Meets out finish (k s) c) :
    Meets out finish ((checkLimit size limit >>= fun _ => k) s) (c.within limit size) := by
  obtain ⟨hc, fits⟩ | ⟨max, rfl, hm, hc⟩ := checkLimit_cases size limit s
  · rw [bind_ok hc, Cut.within_of_le fits]
    exact h fits
  · rw [bind_error hc, Cut.within, if_pos hm]
    exact meets_stopped _

namespace BufferedChannel

open FramedMessaging.Flow

theorem drain_meets (limit : Option Nat) (rounds : Nat) (got : Bytes) (s : BufferedChannel)
    (enough : s.flow.bytes.length < rounds) (fits : ∀ max, limit = some max → got.length ≤ max) :
    Meets .ok s.flow.finish
      ((drain limit rounds got >>= fun data => pure (if data = [] then none else some data)) s)
      ((s.flow.short (if got ++ s.flow.bytes = [] then .ended
        else .payload (got ++ s.flow.bytes) [])).within limit (got ++ s.flow.bytes).length) := by
  rcases drain_cases limit rounds got s enough fits with
    ⟨t, hd, he, ht, hfits⟩ | ⟨max, lost, t, rfl, hd, -, hm⟩ | ⟨why, t, hd, hs, hfits⟩
  · rw [bind_ok hd, pure_apply, short_of_ended he, Cut.within_of_le hfits]
    by_cases hg : got ++ s.flow.bytes = []
    · simpa only [hg, if_true] using meets_ended ht
    · simpa only [hg, if_false] using meets_payload (by rw [ht, he]; rfl)
  · rw [bind_error hd, Cut.within, if_pos hm]
    exact meets_stopped _
  · rw [bind_error hd, short_of_stopped hs, Cut.within_of_le hfits]
    exact meets_stopped why

theorem readRaw_meets (f : DirectFraming) (s : BufferedChannel) :
    Meets .ok s.flow.finish (f.readRaw s) (f.cut s.flow) := by
  have hl := s.flow_length_le
  exact drain_meets f.maxSize (s.available + 1) [] s (by omega) (by simp)

/-- An occurrence that the search of the read-ahead did not meet reaches beyond the read-ahead. -/
theorem clear_of_find_none {marker : Bytes} (ne : marker ≠ []) {s : BufferedChannel} {start : Nat}
    (clear : ∀ p, Bytes.OccursAt marker s.flow.bytes p → start ≤ p)
    (hfind : s.readAhead.find marker start = none) :
    ∀ p, Bytes.OccursAt marker s.flow.bytes p → s.readAhead.size - (marker.length - 1) ≤ p := by
  intro p hp
  have hnone := (Bytes.find_eq_none_iff ne).mp hfind p (clear p hp)
  have hm := List.length_pos_iff.mpr ne
  have hb : ¬ p + marker.length ≤ s.readAhead.size := fun h => hnone (hp.of_append h)
  omega

theorem find_flow_eq_some {marker : Bytes} (ne : marker ≠ []) {s : BufferedChannel}
    {start p : Nat} (clear : ∀ p, Bytes.OccursAt marker s.flow.bytes p → start ≤ p)
    (hfind : s.readAhead.find marker start = some p) :
    s.flow.bytes.find marker 0 = some p := by
  obtain ⟨-, hp, hq⟩ := (Bytes.find_eq_some_iff ne).mp hfind
  refine (Bytes.find_eq_some_iff ne).mpr ⟨Nat.zero_le p, hp.append ne _, fun q _ hlt ho => ?_⟩
  have hb := hp.bound ne
  exact hq q (clear q ho) hlt (ho.of_append (by omega))

theorem atMarker_within {marker : Bytes} (ne : marker ≠ []) (limit : Option Nat)
    {s : BufferedChannel}
    (clear : ∀ p, Bytes.OccursAt marker s.flow.bytes p →
      s.readAhead.size - (marker.length - 1) ≤ p) :
    (Cut.atMarker marker limit s.flow).within limit (s.readAhead.size - (marker.length - 1)) =
      Cut.atMarker marker limit s.flow := by
  unfold Cut.atMarker
  cases hf : s.flow.bytes.find marker 0 with
  | some p => exact Cut.within_within limit (clear p ((Bytes.find_eq_some_iff ne).mp hf).2.1) _
  | none =>
    refine Cut.within_within limit ?_ _
    rw [bytes_flow, List.length_append, Accumulator.size]
    omega

theorem atMarker_readAhead {marker : Bytes} (ne : marker ≠ []) {limit : Option Nat}
    {s : BufferedChannel} (hb : s.beyond.bytes = [])
    (clear : ∀ p, Bytes.OccursAt marker s.flow.bytes p →
      s.readAhead.size - (marker.length - 1) ≤ p)
    (fits : ∀ max, limit = some max → s.readAhead.size - (marker.length - 1) ≤ max) :
    Cut.atMarker marker limit s.flow =
      s.flow.short (if s.readAhead.size = 0 then .ended
        else .failed (.framing (.endedBeforeMarker s.readAhead.size))) := by
  have hw : s.flow.bytes = s.readAhead.bytes := by rw [bytes_flow, hb, List.append_nil]
  have hnone : s.flow.bytes.find marker 0 = none := by
    refine (Bytes.find_eq_none_iff ne).mpr fun q _ ho => ?_
    have hlo := clear q ho
    have hhi := ho.bound ne
    have hm := List.length_pos_iff.mpr ne
    rw [hw] at hhi
    simp only [Accumulator.size] at hlo
    omega
  rw [Cut.atMarker, hnone]
  simp only [hw, Accumulator.size, List.length_eq_zero_iff]
  exact Cut.within_of_le fits _

theorem scan_meets {marker : Bytes} (ne : marker ≠ []) (limit : Option Nat) (rounds scanned : Nat)
    (s : BufferedChannel) (enough : s.beyond.bytes.length < rounds)
    (clear : ∀ p, Bytes.OccursAt marker s.flow.bytes p → scanned - (marker.length - 1) ≤ p) :
    Meets .ok s.flow.finish (scan marker limit rounds scanned s)
      (Cut.atMarker marker limit s.flow) := by
  -- The invariant: no marker starts in front of where the search starts. A round without a marker
  -- moves that place on, and `atMarker_within` counts the bytes before it against the limit.
  induction rounds generalizing scanned s with
  | zero => omega
  | succ rounds ih =>
    rw [scan, bind_ok (get_apply s)]
    cases hfind : s.readAhead.find marker (scanned - (marker.length - 1)) with
    | some p =>
      have hb := ((Bytes.find_eq_some_iff ne).mp hfind).2.1.bound ne
      have hle : p ≤ s.readAhead.size := Nat.le_trans (Nat.le_add_right _ _) hb
      rw [Cut.atMarker, find_flow_eq_some ne clear hfind]
      refine meets_within fun _ => ?_
      rw [bind_ok (takeBuffered_of_le hle), bind_ok (modify_apply _ _), pure_apply, bytes_flow,
        List.take_append_of_le_length (by omega), List.drop_append_of_le_length hb]
      exact meets_payload (by simp [flow, behind, beyond, Accumulator.advance])
    | none =>
      have hnext := clear_of_find_none ne clear hfind
      rw [← atMarker_within ne limit hnext]
      refine meets_within fun hfits => ?_
      rcases fetch_cases s.chunkSize s with
        ⟨b, t, hp, hbne, le, ht, hw⟩ | ⟨t, hp, ht, hw, hw'⟩ | ⟨why, t, hp, hw⟩
      · have hu := flow_extend ht hw
        have hb := List.length_pos_iff.mpr hbne
        have hl : t.beyond.bytes.length < rounds := by
          simp only [hw, bytes_behind, List.length_append] at enough
          omega
        rw [bind_ok hp, ← hu]
        dsimp only
        rw [bind_ok (modify_apply _ _)]
        exact ih s.readAhead.size { t with readAhead := t.readAhead.extend b } hl (hu ▸ hnext)
      · have hs : s.flow.finish = .ended := by rw [finish_flow, hw]; rfl
        rw [bind_ok hp, atMarker_readAhead ne (by simp [hw]) hnext hfits, short_of_ended hs]
        by_cases h0 : s.readAhead.size = 0
        · have ht : t.flow = dry := by
            rw [flow, ht, hw', List.length_eq_zero_iff.mp h0, behind_nil]
          simpa [h0] using meets_ended ht
        · simpa [h0] using meets_stopped _
      · have hs : s.flow.finish = .stopped why := by rw [finish_flow, hw]; rfl
        rw [bind_error hp, atMarker_readAhead ne (by simp [hw]) hnext hfits, short_of_stopped hs]
        exact meets_stopped why

theorem readUntil_meets {marker : Bytes} (ne : marker ≠ []) (limit : Option Nat)
    (s : BufferedChannel) :
    Meets .ok s.flow.finish (readUntil marker limit s) (Cut.atMarker marker limit s.flow) := by
  have hl := s.beyond_length_le
  rw [readUntil_eq_scan ne]
  exact scan_meets ne limit (s.channel.undelivered + 1) 0 s (by omega) (by simp)

theorem readExact_meets (n : Nat) (s : BufferedChannel) :
    Meets .ok s.flow.finish ((readExact n >>= fun body => pure (some body)) s)
      (if s.flow.bytes.length < n then
        s.flow.short (.failed (.framing (.endedInBody s.flow.bytes.length n)))
      else .payload (s.flow.bytes.take n) (s.flow.bytes.drop n)) := by
  rw [readExact, bind_assoc]
  rcases gather_cases n n [] s (Nat.le_refl n) with ⟨t, hg, hw, ht⟩ | ⟨why, t, hg, hw, hs⟩
  · have hu : readUpTo n s = .ok (s.flow.bytes.take n) t := hg
    rw [bind_ok hu]
    by_cases hn : s.flow.bytes.length < n
    · rw [List.take_of_length_le (by omega), if_pos hn, if_pos hn,
        short_of_ended (hw.resolve_left (by omega))]
      exact meets_stopped _
    · rw [List.length_take, if_neg hn, if_neg (by omega)]
      exact meets_payload ht
  · have hu : readUpTo n s = .error why t := hg
    rw [bind_error hu, if_pos hw, short_of_stopped hs]
    exact meets_stopped why

theorem readBody_meets (f : LengthFraming) (s : BufferedChannel) :
    Meets .ok s.flow.finish (f.readBody s) (f.cut s.flow) := by
  rw [LengthFraming.readBody, LengthFraming.cut]
  rcases gather_cases f.header.width.bytes f.header.width.bytes [] s (Nat.le_refl _) with
    ⟨t, hg, hw, ht⟩ | ⟨why, t, hg, hw, hs⟩
  · have hu : readUpTo f.header.width.bytes s =
        .ok (s.flow.bytes.take f.header.width.bytes) t := hg
    rw [bind_ok hu]
    dsimp only
    by_cases hl : s.flow.bytes.length < f.header.width.bytes
    -- Fewer bytes than a header has come only at the end.
    · have hs : s.flow.finish = .ended := hw.resolve_left (by omega)
      rw [List.take_of_length_le (by omega)]
      simp only [hl, if_true, branch_apply, short_of_ended hs]
      by_cases hb : s.flow.bytes = []
      · have ht : t.flow = dry := by rw [ht, hb, hs, List.drop_nil]; rfl
        simp only [hb, if_true]
        exact meets_ended ht
      · simp only [hb, if_false]
        exact meets_stopped _
    · have hn : (s.flow.bytes.take f.header.width.bytes).length = f.header.width.bytes := by
        rw [List.length_take]
        omega
      have hb : s.flow.bytes.take f.header.width.bytes ≠ [] := by
        have hp : 0 < f.header.width.bytes := by cases f.header.width <;> decide
        exact List.length_pos_iff.mp (by omega)
      simp only [hb, hn, hl, branch_apply, if_false, Nat.lt_irrefl]
      cases hd : f.header.decode? (s.flow.bytes.take f.header.width.bytes) with
      | none => exact meets_stopped _
      | some n =>
        dsimp only
        have hs : s.flow.finish = t.flow.finish := by rw [ht]
        rw [← ht, hs, LengthFraming.cutBody]
        by_cases hm : f.maxFrame < n
        · simp only [hm, if_true, branch_apply]
          exact meets_stopped _
        · simp only [hm, if_false, branch_apply]
          exact readExact_meets n t
  · have hu : readUpTo f.header.width.bytes s = .error why t := hg
    rw [bind_error hu, if_pos hw]
    rw [short_of_stopped hs]
    exact meets_stopped why

end BufferedChannel

theorem readToken_meets {k : Operation BufferedChannel (Option α)} {inner : Flow → Cut}
    (hk : ∀ t : BufferedChannel, Meets out t.flow.finish (k t) (inner t.flow)) (size rounds : Nat)
    (expected : Bytes) (s : BufferedChannel) (le : expected.length ≤ size)
    (enough : expected.length ≤ rounds) :
    Meets out s.flow.finish
      ((readToken size rounds expected >>= fun came => if came then k else pure none) s)
      (Cut.behindToken size expected inner s.flow) := by
  induction rounds generalizing expected s with
  | zero =>
    have he : expected = [] := List.length_eq_zero_iff.mp (by omega)
    subst he
    exact hk s
  | succ rounds ih =>
    by_cases he : expected = []
    · subst he
      exact hk s
    have hp := List.length_pos_iff.mpr he
    rw [readToken, if_neg he, bind_assoc]
    rcases pull_cases expected.length s with
      ⟨b, t, hpull, ne, hb, hf⟩ | ⟨t, hpull, hf, hf'⟩ | ⟨why, t, hpull, hf⟩
    · have hl := List.length_pos_iff.mpr ne
      -- The cut tells whether the piece agrees, and where it does the token is shorter by it.
      rw [bind_ok hpull, hf, behindToken_behind inner t.flow le (by omega)]
      dsimp only
      rw [bind_assoc]
      cases hm : matchToken (size - expected.length) b expected with
      | error e => exact meets_stopped _
      | ok left =>
        have hlen := congrArg List.length (eq_append_of_matchToken hm)
        rw [List.length_append] at hlen
        exact ih left t (by omega) (by omega)
    · rw [bind_ok hpull, hf, behindToken_of_nil he inner rfl, Flow.short_of_ended rfl]
      by_cases h0 : size - expected.length = 0
      · simpa [h0] using meets_ended hf'
      · simpa [h0] using meets_stopped _
    · rw [bind_error hpull, hf, behindToken_of_nil he inner rfl, Flow.short_of_stopped rfl]
      exact meets_stopped why

theorem meets_decoded {op : Operation BufferedChannel (Option Bytes)}
    (h : Meets .ok finish (op s) c) (codec : Codec) :
    Meets codec.decode finish ((op >>= Framing.decoded codec) s) c := by
  cases c with
  | payload b rest =>
    obtain ⟨t, hop, ht⟩ := h
    refine ⟨t, ?_, ht⟩
    rw [bind_ok (a := some b) hop]
    cases hd : codec.decode b <;> simp [Framing.decoded, hd, Except.map]
  | ended =>
    obtain ⟨t, hop, ht⟩ := h
    exact ⟨t, bind_ok hop, ht⟩
  | stopped why =>
    obtain ⟨t, hop⟩ := h
    exact ⟨t, bind_error hop⟩

theorem meets_afterToken {op : Operation BufferedChannel (Option Message)}
    {out : Bytes → Except Failure Message} (h : Meets out finish (op s) c) :
    Meets out finish
      ((do
        match ← op with
        | some m => return some m
        | none => .fail (.framing .endedAfterToken)) s) c.afterToken := by
  cases c with
  | payload b rest =>
    obtain ⟨t, hop, ht⟩ := h
    refine ⟨t, ?_, ht⟩
    cases hb : out b with
    | ok m =>
      have hop : op s = .ok (some m) t := by simpa [hb, Except.map] using hop
      exact bind_ok hop
    | error e =>
      have hop : op s = .error (.failure e) t := by simpa [hb, Except.map] using hop
      exact bind_error hop
  | ended =>
    obtain ⟨t, hop, ht⟩ := h
    exact ⟨t, bind_ok hop⟩
  | stopped why =>
    obtain ⟨t, hop⟩ := h
    exact ⟨t, bind_error hop⟩

/-- A read comes to what its framing makes of all that is to come. -/
theorem Framing.read_meets (f : Framing) (s : BufferedChannel) :
    Meets f.codec.decode s.flow.finish (f.read s) (f.cut s.flow) := by
  induction f generalizing s with
  | direct f => exact meets_decoded (readRaw_meets f s) f.codec
  | lengthPrefixed f => exact meets_decoded (readBody_meets f s) f.codec
  | endMarker f => exact meets_decoded (readUntil_meets f.marker_ne f.maxSize s) f.codec
  | negotiated token ne inner ih =>
    exact readToken_meets (fun t => meets_afterToken (ih t)) token.length token.length token s
      (Nat.le_refl _) (Nat.le_refl _)

theorem Codec.serialization_of_decode {c : Codec} {b : Bytes} {e : Failure}
    (h : c.decode b = .error e) : ∃ fault, e = .serialization .decode fault := by
  unfold decode at h
  cases hp : c.ofPayload b with
  | ok m =>
    rw [hp] at h
    cases h
  | error fault =>
    rw [hp] at h
    cases h
    exact ⟨fault, rfl⟩

theorem Codec.endsConnection_of_decode {c : Codec} {b : Bytes} {e : Failure}
    (h : c.decode b = .error e) : e.endsConnection = false := by
  obtain ⟨fault, rfl⟩ := serialization_of_decode h
  rfl

theorem Framing.cut_of_read_error {f : Framing} {s t : BufferedChannel} {e : Failure}
    (h : f.read s = .error (.failure e) t) (fatal : e.endsConnection = true) :
    f.cut s.flow = .failed e := by
  have hm := f.read_meets s
  cases hc : f.cut s.flow with
  | payload body rest =>
    rw [hc] at hm
    obtain ⟨u, hr, -⟩ := hm
    rw [h] at hr
    cases hd : f.codec.decode body with
    | ok m =>
      rw [hd] at hr
      cases hr
    | error fault =>
      rw [hd] at hr
      cases hr
      rw [Codec.endsConnection_of_decode hd] at fatal
      cases fatal
  | ended =>
    rw [hc] at hm
    obtain ⟨u, hr, -⟩ := hm
    rw [h] at hr
    cases hr
  | stopped why =>
    rw [hc] at hm
    obtain ⟨u, hr⟩ := hm
    rw [h] at hr
    cases hr
    rfl

end FramedMessaging
