import FramedMessaging.Proofs.Discovery.Lookups
import FramedMessaging.Proofs.Discovery.MergedContexts
import FramedMessaging.Proofs.Extension.PropertyTexts
import Mathlib.Data.List.TakeWhile
set_option autoImplicit false

namespace FramedMessaging.Discovery

theorem IsId.toNat_bounds {id : String} (h : IsId id) {c : Char} (hc : c ∈ id.toList) :
    0x2d ≤ c.toNat ∧ c.toNat ≤ 0x7a := by
  have within {low high : Char} (hl : low ≤ c) (hh : c ≤ high) :
      low.toNat ≤ c.toNat ∧ c.toNat ≤ high.toNat := ⟨hl, hh⟩
  rcases h.2 c hc with ⟨hl, hh⟩ | ⟨hl, hh⟩ | ⟨hl, hh⟩ | rfl | rfl | rfl | rfl
  · exact (within hl hh).imp (Nat.le_trans (by decide)) (Nat.le_trans · (by decide))
  · exact (within hl hh).imp (Nat.le_trans (by decide)) (Nat.le_trans · (by decide))
  · exact (within hl hh).imp (Nat.le_trans (by decide)) (Nat.le_trans · (by decide))
  all_goals decide

namespace Declaration

theorem content_toList {id : String} (h : IsId id) : content id.toList = id := by
  have noSpace (c : Char) (hc : c ∈ id.toList) : Text.isSpace c = false := by
    have bounds := h.toNat_bounds hc
    simp only [Text.isSpace, Bool.or_eq_false_iff, Bool.and_eq_false_iff, decide_eq_false_iff_not,
      beq_eq_false_iff_ne]
    omega
  have noComment : id.toList.takeWhile (· != '#') = id.toList := by
    refine List.takeWhile_eq_self_iff.mpr fun c hc => ?_
    rw [bne_iff_ne]
    rintro rfl
    exact absurd (h.toNat_bounds hc).1 (by decide)
  have trimmed : Text.trim id.toList = id.toList :=
    Text.trim_eq_iff.mpr ⟨⟨[], [], by simp, by simp, by simp⟩,
      fun c hc => noSpace c (List.mem_of_head? hc), fun c hc => noSpace c (List.mem_of_getLast? hc)⟩
  rw [content, noComment, trimmed, String.ofList_toList]

theorem lines_intercalate {ids : List String} (valid : ∀ id ∈ ids, IsId id) :
    Text.lines ("\n".intercalate ids).toList = ids.map String.toList := by
  rcases ids.eq_nil_or_concat' with rfl | ⟨front, id, rfl⟩
  · rfl
  have parts : Text.splitAt '\n' ("\n".intercalate (front ++ [id])).toList =
      (front ++ [id]).map String.toList := by
    refine Text.splitAt_eq_iff.mpr ⟨?_, by simp, fun part hp newline => ?_⟩
    · rw [String.toList_intercalate]
      rfl
    · obtain ⟨other, ho, rfl⟩ := List.mem_map.mp hp
      exact absurd ((valid other ho).toNat_bounds newline).1 (by decide)
  -- The last line is not blank, so none is dropped.
  have full : id.toList ≠ [] := by simpa using (valid id (by simp)).1
  rw [Text.lines, parts, List.map_append, List.reverse_append]
  split
  · next blank => exact absurd (List.cons.inj blank).1 full
  · rw [List.reverse_append, List.reverse_reverse]
    rfl

theorem mem_parse_iff {text id : String} : implementation id ∈ parse text ↔
    IsId id ∧ ∃ line ∈ Text.lines text.toList, content line = id := by
  rw [parse_eq, List.mem_eraseDups, mem_ofLines_iff]

theorem mem_parse_joinText {s t id : String} : implementation id ∈ parse (joinText s t) ↔
    implementation id ∈ parse s ∨ implementation id ∈ parse t := by
  simp only [mem_parse_iff, lines_joinText, List.mem_append, or_and_right, exists_or, and_or_left]

theorem mem_parse_intercalate {ids : List String} (valid : ∀ id ∈ ids, IsId id) {id : String} :
    implementation id ∈ parse ("\n".intercalate ids) ↔ id ∈ ids := by
  rw [mem_parse_iff, lines_intercalate valid]
  constructor
  · rintro ⟨-, line, hl, rfl⟩
    obtain ⟨other, ho, rfl⟩ := List.mem_map.mp hl
    rwa [content_toList (valid other ho)]
  · intro h
    exact ⟨valid id h, id.toList, List.mem_map_of_mem h, content_toList (valid id h)⟩

end Declaration

def Tells (text : Option String) (id : String) : Prop :=
  ∃ t, text = some t ∧ .implementation id ∈ Declaration.parse t

@[simp] theorem tells_none (id : String) : ¬ Tells none id := by simp [Tells]

@[simp] theorem tells_some (t id : String) :
    Tells (some t) id ↔ .implementation id ∈ Declaration.parse t := by simp [Tells]

theorem tells_join (s t : Option String) (id : String) :
    Tells ((t.map (joinOnto s)).getD s) id ↔ Tells s id ∨ Tells t id := by
  cases t with
  | none => simp
  | some t =>
    cases s with
    | none => simp [joinOnto, joinText_empty]
    | some s => simp [joinOnto, Declaration.mem_parse_joinText]

theorem tells_addContext (contexts : List ResourceContext) {x : ResourceContext}
    (h : (x.resources.map (·.1)).Nodup) (context path id : String) :
    Tells (storedAt context path (addContext x contexts)) id ↔
      Tells (storedAt context path contexts) id ∨ x.name = context ∧ Tells (x.get? path) id := by
  rw [storedAt_addContext contexts h]
  split
  · next hn => rw [tells_join, and_iff_right hn]
  · next hn => simp [hn]

theorem services?_declare (name contract : String) (ids : List String) :
    ((ResourceContext.empty name).declare contract ids).services? contract =
      some ("\n".intercalate ids) := by
  simp [ResourceContext.declare, ResourceContext.add, ResourceContext.empty,
    ResourceContext.services?, ResourceContext.get?, addText]

theorem Registry.Records.mem_declared_iff {κ : Type} [ContractFamily κ] [DecidableEq κ]
    {calls : List (Registration κ)} {r : Registry κ}
    (records : r.Records calls) {c : κ} {name : String} (named : .contract c name ∈ calls)
    (context id : String) : .implementation id ∈ r.declared context c ↔
      Tells (storedAt context (servicePath name) r.contexts) id := by
  unfold declared storedAt
  rw [(records.named c name).mpr named]
  cases r.contexts.find? fun x => x.name == context with
  | none => simp
  | some x =>
    rw [Option.bind_some, ← ResourceContext.services?]
    dsimp only
    cases x.services? name <;> simp

end FramedMessaging.Discovery
