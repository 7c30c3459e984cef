import FramedMessaging.Proofs.Framing.Enclosure
import FramedMessaging.Proofs.Framing.OneShotRead
/-!
What a cut uses up and why it stops. A payload takes at least one byte off the front of what is to
come, even if the payload is empty. A framing stops for a reason that the flow has, or because the
bytes do not fit. A header that cannot be read is no such reason, as no header is looked at before
it is complete.
-/
set_option autoImplicit false

namespace FramedMessaging

namespace Cut

def Consumes (b : Bytes) : Cut → Prop
  | .payload _ rest => ∃ taken, taken ≠ [] ∧ b = taken ++ rest
  | _ => True

variable {c : Cut} {b : Bytes}

theorem Consumes.append (h : c.Consumes b) (front : Bytes) : c.Consumes (front ++ b) := by
  cases c with
  | payload body rest =>
    obtain ⟨taken, ne, hb⟩ := h
    exact ⟨front ++ taken, by simp [ne], by rw [hb, List.append_assoc]⟩
  | ended => trivial
  | stopped why => trivial

theorem Consumes.within (h : c.Consumes b) (limit : Option Nat) (n : Nat) :
    (c.within limit n).Consumes b := by
  obtain ⟨hc, -⟩ | ⟨max, -, -, hc⟩ := within_cases limit n c
  · rwa [hc]
  · rw [hc]
    trivial

theorem Consumes.afterToken (h : c.Consumes b) : c.afterToken.Consumes b := by
  cases c with
  | payload body rest => exact h
  | ended => trivial
  | stopped why => trivial

theorem Consumes.short (h : c.Consumes b) (w : Flow) : (w.short c).Consumes b := by
  unfold Flow.short
  split
  · exact h
  · trivial

theorem consumes_ended_or_stopped (p : Prop) [Decidable p] (why : Stop) :
    (if p then Cut.ended else .stopped why).Consumes b := by
  split <;> trivial

theorem consumes_take {body : Bytes} {n : Nat} (pos : 0 < n) (ne : b ≠ []) :
    (payload body (b.drop n)).Consumes b :=
  ⟨b.take n, by simp [ne, Nat.ne_of_gt pos], (List.take_append_drop n b).symm⟩

end Cut

open Cut

theorem DirectFraming.cut_consumes (f : DirectFraming) (w : Flow) :
    (f.cut w).Consumes w.bytes := by
  refine (Consumes.short ?_ w).within _ _
  split
  · trivial
  · exact ⟨w.bytes, ‹_›, (List.append_nil _).symm⟩

theorem LengthFraming.cut_consumes (f : LengthFraming) (w : Flow) :
    (f.cut w).Consumes w.bytes := by
  have hw := f.header.width.bytes_pos
  simp only [cut, cutBody]
  split
  · exact (consumes_ended_or_stopped _ _).short w
  · have ne : w.bytes ≠ [] := List.length_pos_iff.mp (by omega)
    split
    · trivial
    · split
      · trivial
      · split
        · exact Consumes.short (c := .failed _) trivial _
        · rw [List.drop_drop]
          exact consumes_take (by omega) ne

theorem MarkerFraming.atMarker_consumes (f : MarkerFraming) (w : Flow) :
    (atMarker f.marker f.maxSize w).Consumes w.bytes := by
  have hm := List.length_pos_iff.mpr f.marker_ne
  unfold atMarker
  cases hf : w.bytes.find f.marker 0 with
  | none => exact ((consumes_ended_or_stopped _ _).short w).within _ _
  | some p =>
    have hb := ((Bytes.find_eq_some_iff f.marker_ne).mp hf).2.1.bound f.marker_ne
    have ne : w.bytes ≠ [] := List.length_pos_iff.mp (by omega)
    exact (consumes_take (by omega) ne).within _ _

theorem Framing.cut_consumes (f : Framing) (w : Flow) : (f.cut w).Consumes w.bytes := by
  induction f generalizing w with
  | direct f => exact f.cut_consumes w
  | lengthPrefixed f => exact f.cut_consumes w
  | endMarker f => exact f.atMarker_consumes w
  | negotiated token ne inner ih =>
    unfold cut behindToken
    dsimp only
    split
    · trivial
    · have hi := (ih ⟨w.bytes.drop token.length, w.finish⟩).afterToken
      have hb := hi.append (w.bytes.take token.length)
      rwa [List.take_append_drop] at hb
    · exact (consumes_ended_or_stopped _ _).short w

theorem Framing.append_of_cut {f : Framing} {w : Flow} {body rest : Bytes}
    (h : f.cut w = .payload body rest) : ∃ taken, taken ≠ [] ∧ w.bytes = taken ++ rest := by
  have hc := f.cut_consumes w
  rwa [h] at hc

theorem Framing.length_lt_of_cut {f : Framing} {w : Flow} {body rest : Bytes}
    (h : f.cut w = .payload body rest) : rest.length < w.bytes.length := by
  obtain ⟨taken, ne, hb⟩ := append_of_cut h
  have hl := List.length_pos_iff.mpr ne
  rw [hb, List.length_append]
  omega

inductive Finish.Explains (finish : Finish) : Stop → Prop where
  | own {why : Stop} (own : finish = .stopped why) : Explains finish why
  | unfit (fault : FramingFault) (readable : fault ≠ .unreadableHeader) :
      Explains finish (.failure (.framing fault))
  | mismatch (fault : MismatchFault) : Explains finish (.failure (.mismatch fault))

namespace Cut

def Explained (finish : Finish) : Cut → Prop
  | .stopped why => finish.Explains why
  | _ => True

variable {c : Cut} {finish : Finish}

theorem explained_unfit {fault : FramingFault} (readable : fault ≠ .unreadableHeader) :
    (failed (.framing fault)).Explained finish := .unfit fault readable

theorem Explained.within (h : c.Explained finish) (limit : Option Nat) (size : Nat) :
    (c.within limit size).Explained finish := by
  obtain ⟨hc, -⟩ | ⟨max, -, -, hc⟩ := within_cases limit size c
  · rwa [hc]
  · rw [hc]
    exact explained_unfit (fun h => by cases h)

theorem Explained.afterToken (h : c.Explained finish) : c.afterToken.Explained finish := by
  cases c with
  | payload body rest => trivial
  | ended => exact explained_unfit (fun h => by cases h)
  | stopped why => exact h

theorem Explained.short {w : Flow} (h : c.Explained w.finish) :
    (w.short c).Explained w.finish := by
  unfold Flow.short
  cases hf : w.finish with
  | ended => rwa [hf] at h
  | stopped why => exact .own rfl

theorem explained_ended_or_unfit (p : Prop) [Decidable p] {fault : FramingFault}
    (readable : fault ≠ .unreadableHeader) :
    (if p then Cut.ended else failed (.framing fault)).Explained finish := by
  split
  · trivial
  · exact explained_unfit readable

theorem mismatch_of_matchToken {offset : Nat} {data expected : Bytes} {e : Failure}
    (fits : data.length ≤ expected.length) (h : matchToken offset data expected = .error e) :
    ∃ fault, e = .mismatch fault := by
  induction data generalizing offset expected with
  | nil => simp [matchToken] at h
  | cons b more ih =>
    cases expected with
    | nil => simp at fits
    | cons t expected =>
      by_cases hb : b = t
      · simp only [matchToken, hb, if_true] at h
        exact ih (Nat.le_of_succ_le_succ fits) h
      · simp only [matchToken, hb, if_false, Except.error.injEq] at h
        exact ⟨_, h.symm⟩

theorem explained_behindToken (size : Nat) (expected : Bytes) {inner : Flow → Cut} {w : Flow}
    (h : ∀ b, (inner ⟨b, w.finish⟩).Explained w.finish) :
    (behindToken size expected inner w).Explained w.finish := by
  unfold behindToken
  dsimp only
  cases hm : matchToken (size - expected.length) (w.bytes.take expected.length) expected with
  | error e =>
    obtain ⟨fault, rfl⟩ := mismatch_of_matchToken (List.length_take_le _ _) hm
    exact .mismatch fault
  | ok left =>
    cases left with
    | nil => exact h _
    | cons t left => exact (explained_ended_or_unfit _ (fun h => by cases h)).short

theorem explained_atMarker (marker : Bytes) (limit : Option Nat) (w : Flow) :
    (atMarker marker limit w).Explained w.finish := by
  unfold atMarker
  split
  · exact Explained.within (c := .payload _ _) trivial _ _
  · exact (explained_ended_or_unfit _ (fun h => by cases h)).short.within _ _

end Cut

theorem DirectFraming.cut_explained (f : DirectFraming) (w : Flow) :
    (f.cut w).Explained w.finish := by
  refine (Explained.short ?_).within _ _
  split <;> trivial

theorem LengthFraming.cut_explained (f : LengthFraming) (w : Flow) :
    (f.cut w).Explained w.finish := by
  simp only [cut, cutBody]
  split
  · exact (explained_ended_or_unfit _ (fun h => by cases h)).short
  · have hw : (w.bytes.take f.header.width.bytes).length = f.header.width.bytes := by
      rw [List.length_take]
      omega
    rw [LengthHeader.decode?, if_pos hw]
    dsimp only
    split
    · exact explained_unfit (fun h => by cases h)
    · split
      · exact (explained_unfit (fun h => by cases h)).short
      · trivial

theorem Framing.cut_explained (f : Framing) (w : Flow) : (f.cut w).Explained w.finish := by
  induction f generalizing w with
  | direct f => exact f.cut_explained w
  | lengthPrefixed f => exact f.cut_explained w
  | endMarker f => exact explained_atMarker f.marker f.maxSize w
  | negotiated token ne inner ih =>
    exact explained_behindToken _ _ fun b => (ih ⟨b, w.finish⟩).afterToken

end FramedMessaging
