import FramedMessaging.Proofs.Channel.HeldBytes
import FramedMessaging.Proofs.Framing.Acceptance
import FramedMessaging.Proofs.Framing.ReadBounds
set_option autoImplicit false

namespace FramedMessaging

open Operation

namespace BufferedChannel

variable {c d : Nat} {s t u : BufferedChannel}

/-- The first `c` bytes in store are used up, those of the read-ahead first and then those of the
channel. -/
structure Advanced (c : Nat) (s t : BufferedChannel) : Prop where
  le : c ≤ s.stored.length
  readAhead : t.readAhead.bytes = s.readAhead.bytes.drop c
  channel : t.channel.stored = s.channel.stored.drop (c - s.readAhead.size)

namespace Advanced

theorem refl (s : BufferedChannel) : Advanced 0 s s := ⟨Nat.zero_le _, rfl, by simp⟩

theorem size_readAhead (h : Advanced c s t) : t.readAhead.size = s.readAhead.size - c := by
  rw [Accumulator.size, h.readAhead, List.length_drop, Accumulator.size]

theorem undelivered (h : Advanced c s t) :
    s.channel.undelivered = t.channel.undelivered + (c - s.readAhead.size) := by
  have hl := h.le
  rw [length_stored, available] at hl
  rw [← t.channel.length_stored, h.channel, List.length_drop, s.channel.length_stored]
  omega

theorem stored_eq (h : Advanced c s t) : t.stored = s.stored.drop c := by
  rw [stored, stored, h.readAhead, h.channel, List.drop_append, Accumulator.size]

theorem trans (h : Advanced c s t) (h' : Advanced d t u) : Advanced (c + d) s u := by
  have hd := h'.le
  have hc := h.le
  have hsize := h.size_readAhead
  rw [h.stored_eq, List.length_drop] at hd
  refine ⟨by omega, ?_, ?_⟩
  · rw [h'.readAhead, h.readAhead, List.drop_drop]
  · rw [h'.channel, h.channel, List.drop_drop]
    congr 1
    omega

end Advanced

theorem advanced_pull (most : Nat) (s : BufferedChannel) :
    Advanced (brought (pull most s)).length s (final (pull most s)) := by
  by_cases hr : s.readAhead.bytes = []
  · obtain ⟨ha, hs⟩ := s.stored_fetch (max most 1)
    rw [pull_of_empty hr]
    refine ⟨?_, ?_, ?_⟩
    · rw [stored, hs]
      simp only [List.length_append]
      omega
    · rw [ha, hr, List.drop_nil]
    · rw [Accumulator.size, hr, List.length_nil, Nat.sub_zero, hs, List.drop_left]
  · have hn : min (max most 1) s.readAhead.size ≤ s.readAhead.size := Nat.min_le_right _ _
    rw [pull_of_nonempty hr, brought, List.length_take_of_le hn]
    refine ⟨?_, rfl, ?_⟩
    · rw [stored, List.length_append]
      exact Nat.le_trans hn (Nat.le_add_right _ _)
    · rw [final_ok, Nat.sub_eq_zero_of_le hn, List.drop_zero]

theorem advanced_relation : PullRelation fun s t => ∃ c, Advanced c s t where
  refl s := ⟨0, .refl s⟩
  trans := fun ⟨c, h⟩ ⟨d, h'⟩ => ⟨c + d, h.trans h'⟩
  pull most s := ⟨_, advanced_pull most s⟩

theorem advanced_gather (rounds missing : Nat) (got : Bytes) (s : BufferedChannel)
    (enough : missing ≤ rounds) :
    Advanced (min missing s.flow.bytes.length) s (final (gather rounds missing got s)) := by
  induction rounds generalizing missing got s with
  | zero =>
    rw [Nat.le_zero.mp enough, Nat.zero_min]
    exact .refl s
  | succ rounds ih =>
    rw [gather]
    by_cases h0 : missing = 0
    · rw [h0, Nat.zero_min]
      exact .refl s
    rw [if_neg h0, bind_ok (get_apply s)]
    have hadv := advanced_pull (min missing s.chunkSize) s
    rcases pull_cases (min missing s.chunkSize) s with
      ⟨b, t, hp, ne, le, hf⟩ | ⟨t, hp, hf, -⟩ | ⟨why, t, hp, hf⟩
    · -- What one round brought is as much less for the others to bring.
      have hb := List.length_pos_iff.mpr ne
      have hl : s.flow.bytes.length = b.length + t.flow.bytes.length := by simp [hf]
      have hc : min missing s.flow.bytes.length =
          b.length + min (missing - b.length) t.flow.bytes.length := by omega
      rw [hp] at hadv
      rw [bind_ok hp, hc]
      exact hadv.trans (ih (missing - b.length) (got ++ b) t (by omega))
    · rw [hp] at hadv
      rw [bind_ok hp, hf, Flow.bytes_dry, List.length_nil, Nat.min_zero]
      exact hadv
    · rw [hp] at hadv
      rw [bind_error hp, hf, Flow.bytes_halted, List.length_nil, Nat.min_zero]
      exact hadv

theorem advanced_readUpTo (n : Nat) (s : BufferedChannel) :
    Advanced (min n s.flow.bytes.length) s (final (readUpTo n s)) :=
  advanced_gather n n [] s (Nat.le_refl n)

theorem final_readExact (n : Nat) (s : BufferedChannel) :
    final (readExact n s) = final (readUpTo n s) := by
  refine final_bind (fun data t => ?_) s
  rw [branch_apply]
  split <;> rfl

end BufferedChannel

open BufferedChannel

namespace LengthFraming

theorem final_read (f : LengthFraming) (s : BufferedChannel) :
    final ((Framing.lengthPrefixed f).read s) = final (f.readBody s) := by
  refine final_bind (fun data t => ?_) s
  cases data with
  | none => rfl
  | some data => rw [Framing.decoded, final_map, final_lift]

theorem readBody_cases (f : LengthFraming) (s : BufferedChannel) :
    (∃ n t, f.header.decode? (s.flow.bytes.take f.header.width.bytes) = some n ∧
      n ≤ f.maxFrame ∧
      readUpTo f.header.width.bytes s = .ok (s.flow.bytes.take f.header.width.bytes) t ∧
      t.flow = ⟨s.flow.bytes.drop f.header.width.bytes, s.flow.finish⟩ ∧
      final (f.readBody s) = final (readExact n t)) ∨
    ((∀ n, f.header.decode? (s.flow.bytes.take f.header.width.bytes) = some n →
      f.maxFrame < n) ∧ final (f.readBody s) = final (readUpTo f.header.width.bytes s)) := by
  rw [readBody]
  rcases gather_cases f.header.width.bytes f.header.width.bytes [] s (Nat.le_refl _) with
    ⟨t, hg, -, ht⟩ | ⟨why, t, hg, short, -⟩
  · have hu : readUpTo f.header.width.bytes s =
        .ok (s.flow.bytes.take f.header.width.bytes) t := hg
    rw [bind_ok hu, hu]
    dsimp only
    cases hd : f.header.decode? (s.flow.bytes.take f.header.width.bytes) with
    | none =>
      -- Without a number the read stops, whether the header is empty, short or cannot be read.
      refine .inr ⟨fun n h => ?_, ?_⟩
      · cases h
      · simp only [branch_apply]
        split
        · rfl
        · split <;> rfl
    | some n =>
      have hl := LengthHeader.length_of_decode? hd
      have hb : s.flow.bytes.take f.header.width.bytes ≠ [] := by
        have hw := f.header.width.bytes_pos
        exact List.length_pos_iff.mp (by omega)
      simp only [hb, hl, branch_apply, if_false, Nat.lt_irrefl]
      by_cases hm : f.maxFrame < n
      · refine .inr ⟨fun n' h => ?_, ?_⟩
        · cases h
          exact hm
        · simp only [hm, if_true]
          rfl
      · refine .inl ⟨n, t, rfl, Nat.not_lt.mp hm, rfl, ht, ?_⟩
        simp only [hm, if_false]
        exact final_bind (fun body t => rfl) t
  · have hu : readUpTo f.header.width.bytes s = .error why t := hg
    rw [bind_error hu, hu]
    -- The channel failed inside the header, so no header of full width came.
    refine .inr ⟨fun n hd => ?_, rfl⟩
    have hl := LengthHeader.length_of_decode? hd
    rw [List.length_take] at hl
    omega

theorem advanced_read (f : LengthFraming) (s : BufferedChannel) :
    let q := s.flow.bytes
    let width := f.header.width.bytes
    ((∀ n, f.header.decode? (q.take width) = some n → f.maxFrame < n) →
      Advanced (min width q.length) s (final ((Framing.lengthPrefixed f).read s))) ∧
    (∀ n, f.header.decode? (q.take width) = some n → n ≤ f.maxFrame →
      Advanced (width + min n (q.length - width)) s
        (final ((Framing.lengthPrefixed f).read s))) := by
  dsimp only
  have header := advanced_readUpTo f.header.width.bytes s
  rw [f.final_read]
  obtain ⟨n, t, hd, le, hu, ht, hr⟩ | ⟨unannounced, hr⟩ := f.readBody_cases s
  · refine ⟨fun unannounced => absurd (unannounced n hd) (Nat.not_lt.mpr le), fun n' hd' _ => ?_⟩
    cases hd.symm.trans hd'
    have hl : f.header.width.bytes ≤ s.flow.bytes.length := by
      have hl := LengthHeader.length_of_decode? hd
      rw [List.length_take] at hl
      omega
    have body := advanced_readUpTo n t
    rw [hu, final_ok, Nat.min_eq_left hl] at header
    rw [ht, List.length_drop] at body
    rw [hr, final_readExact]
    exact header.trans body
  · rw [hr]
    exact ⟨fun _ => header, fun n hd le => absurd (unannounced n hd) (Nat.not_lt.mpr le)⟩

end LengthFraming

theorem readToken_mismatch {size rounds : Nat} {expected : Bytes} {s t : BufferedChannel}
    {b : UInt8} {k : Nat} (le : expected.length ≤ size)
    (h : readToken size rounds expected s =
      .error (.failure (.mismatch (.unexpectedByte b k))) t) :
    ∃ j c, k = size - expected.length + j ∧ Departs expected s.flow.bytes j b ∧ j + 1 ≤ c ∧
      c ≤ expected.length ∧ Advanced c s t := by
  induction rounds generalizing expected s with
  | zero => cases h
  | succ rounds ih =>
    rw [readToken] at h
    by_cases he : expected = []
    · rw [if_pos he] at h
      cases h
    rw [if_neg he] at h
    have hadv := advanced_pull expected.length s
    have own := s.ofChannel_flow
    have hpos := List.length_pos_iff.mpr he
    rcases pull_cases expected.length s with
      ⟨data, t', hp, ne, fits, hf⟩ | ⟨t', hp, -, -⟩ | ⟨why, t', hp, hf⟩
    · have fits : data.length ≤ expected.length := by omega
      have hdata := List.length_pos_iff.mpr ne
      rw [hp] at hadv
      rw [bind_ok hp] at h
      dsimp only at h
      cases hm : matchToken (size - expected.length) data expected with
      | error e =>
        rw [hm, bind_error (lift_error e t')] at h
        have htake : data.take expected.length = data := List.take_of_length_le fits
        obtain ⟨j, c, hj, rfl⟩ := matchToken_take_eq_error_iff.mp (htake.symm ▸ hm)
        cases h
        have hl := hj.lt_length
        -- The piece strays, so the read ends with this piece and nothing behind it is pulled.
        refine ⟨j, data.length, rfl, ?_, hl, fits, hadv⟩
        rw [hf]
        exact hj.append _
      | ok left =>
        rw [hm, bind_ok (lift_ok left t')] at h
        have hx := eq_append_of_matchToken hm
        have hl : expected.length = data.length + left.length := by rw [hx, List.length_append]
        -- The piece agrees, so the place in what is left of the token shifts by the piece's length.
        obtain ⟨j, c, hk, hj, lo, hi, hadv'⟩ := ih (by omega) h
        refine ⟨data.length + j, data.length + c, by omega, ?_, by omega, by omega,
          hadv.trans hadv'⟩
        rw [hf, hx]
        exact hj.behind data
    · rw [bind_ok hp] at h
      dsimp only at h
      split at h <;> cases h
    · rw [bind_error hp] at h
      cases h
      rw [hf] at own
      cases own

namespace Framing

inductive Headed : Framing → Prop where
  | lengthPrefixed (f : LengthFraming) : Headed (lengthPrefixed f)
  | negotiated (token : Bytes) (ne : token ≠ []) {inner : Framing} (headed : Headed inner) :
      Headed (negotiated token ne inner)

variable {f : Framing}

theorem Headed.advances (headed : f.Headed) (s : BufferedChannel) :
    ∃ c, Advanced c s (final (f.read s)) := by
  have respects : Respects (fun s t => ∃ c, Advanced c s t) f.read := by
    induction headed with
    | lengthPrefixed f => exact advanced_relation.lengthPrefixed f
    | negotiated token ne headed ih => exact advanced_relation.negotiated ne ih
  exact respects s

/-- Whatever a read of a headed frame comes to, it uses up bytes from the front of the store: first
those read ahead, and of the channel's only as many as are missing. It uses up the header, or as
much as comes of it, and the body that the header announces, if that body is to be read. Where the
bytes depart from a token it uses up no more than that token, and nothing is read behind it. -/
theorem read_advances (headed : f.Headed) (s : BufferedChannel) :
    (∃ c, Advanced c s (final (f.read s)) ∧
      (final (f.read s)).readAhead.size = s.readAhead.size - c ∧
      s.channel.undelivered =
        (final (f.read s)).channel.undelivered + (c - s.readAhead.size)) ∧
    (∀ g, f = .lengthPrefixed g →
      let q := s.flow.bytes
      let width := g.header.width.bytes
      (q.length < width ∨ (∃ n, g.header.decode? (q.take width) = some n ∧ g.maxFrame < n) →
        Advanced (min width q.length) s (final (f.read s))) ∧
      ∀ n, g.header.decode? (q.take width) = some n → n ≤ g.maxFrame →
        Advanced (width + min n (q.length - width)) s (final (f.read s))) ∧
    (∀ token ne inner, f = .negotiated token ne inner → ∀ b k t,
      expectToken token s = .error (.failure (.mismatch (.unexpectedByte b k))) t →
      Departs token s.flow.bytes k b ∧
      f.read s = .error (.failure (.mismatch (.unexpectedByte b k))) t ∧
      ∃ c, k + 1 ≤ c ∧ c ≤ token.length ∧ Advanced c s t) := by
  refine ⟨?_, ?_, ?_⟩
  · obtain ⟨c, h⟩ := headed.advances s
    exact ⟨c, h, h.size_readAhead, h.undelivered⟩
  · rintro g rfl
    obtain ⟨unannounced, announced⟩ := g.advanced_read s
    refine ⟨fun h => unannounced fun n hd => ?_, announced⟩
    obtain short | ⟨n', hd', lt⟩ := h
    · have hl := LengthHeader.length_of_decode? hd
      rw [List.length_take] at hl
      omega
    · cases hd.symm.trans hd'
      exact lt
  · rintro token ne inner rfl b k t h
    obtain ⟨j, c, hk, departs, lo, hi, advanced⟩ := readToken_mismatch (Nat.le_refl _) h
    rw [Nat.sub_self, Nat.zero_add] at hk
    subst hk
    exact ⟨departs, bind_error h, c, lo, hi, advanced⟩

/-- The first byte of the token is read ahead. The piece that strays ends with the stray byte, and
what is behind it stays on the channel. -/
theorem read_advances_to_stray_byte :
    let f := negotiated [7, 8, 9] (by decide) (.lengthPrefixed .standard)
    let s := handBack [7] (ofChannel (.ofTransport
      ⟨[.yields, .ready [8, 5, 1, 2]], false, [], [], [], [], 0, 0⟩) 2)
    ∃ t, f.read s = .error (.failure (.mismatch (.unexpectedByte 5 2))) t ∧ Advanced 3 s t ∧
      t.channel.undelivered = 2 := by
  intro f s
  have headed : f.Headed := .negotiated [7, 8, 9] _ (.lengthPrefixed .standard)
  have hr : ∃ t, expectToken [7, 8, 9] s =
      .error (.failure (.mismatch (.unexpectedByte 5 2))) t := ⟨_, rfl⟩
  obtain ⟨t, ht⟩ := hr
  obtain ⟨-, -, departed⟩ := read_advances headed s
  obtain ⟨-, hread, c, lo, hi, advanced⟩ := departed [7, 8, 9] (by decide) _ rfl 5 2 t ht
  obtain rfl : c = 3 := Nat.le_antisymm hi lo
  have left : 4 = t.channel.undelivered + 2 := advanced.undelivered
  exact ⟨t, hread, advanced, by omega⟩

end Framing

end FramedMessaging
