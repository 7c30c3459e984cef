import FramedMessaging.Proofs.Discovery.JoinedTexts
import FramedMessaging.Proofs.Discovery.Registration
set_option autoImplicit false

namespace FramedMessaging.Discovery

def textAt (path : String) (resources : List (String × String)) : Option String :=
  (resources.find? fun r => r.1 == path).map (·.2)

def textsAt (path : String) (added : List (String × String)) : List String :=
  added.filterMap fun a => if a.1 = path then some a.2 else none

theorem textsAt_cons (path : String) (a : String × String) (rest : List (String × String)) :
    textsAt path (a :: rest) =
      if a.1 = path then a.2 :: textsAt path rest else textsAt path rest := by
  by_cases h : a.1 = path <;> simp [textsAt, h]

theorem textAt_addText (path other text : String) (resources : List (String × String)) :
    textAt path (addText other text resources) =
      if other = path then joinOnto (textAt path resources) text else textAt path resources := by
  induction resources with
  | nil => by_cases h : other = path <;> simp [addText, textAt, h, joinOnto, joinText_empty]
  | cons r rest ih =>
    obtain ⟨p, existing⟩ := r
    rw [addText]
    by_cases hp : p = other
    · subst hp
      by_cases h : p = path <;> simp [textAt, h, joinOnto]
    · rw [if_neg hp]
      by_cases h : p = path
      · subst h
        simp [textAt, Ne.symm hp]
      · simpa [textAt, h] using ih

theorem textAt_foldl_addText (path : String) (added resources : List (String × String)) :
    textAt path (added.foldl (fun rs r => addText r.1 r.2 rs) resources) =
      (textsAt path added).foldl joinOnto (textAt path resources) := by
  induction added generalizing resources with
  | nil => rfl
  | cons a rest ih =>
    rw [List.foldl_cons, ih, textAt_addText, textsAt_cons]
    split <;> rfl

theorem map_fst_addText (path text : String) (resources : List (String × String)) :
    (addText path text resources).map (·.1) =
      if path ∈ resources.map (·.1) then resources.map (·.1)
      else resources.map (·.1) ++ [path] := by
  induction resources with
  | nil => rfl
  | cons r rest ih =>
    rw [addText]
    by_cases h : r.1 = path
    · simp [h]
    · rw [if_neg h, List.map_cons, ih]
      by_cases hp : path ∈ rest.map (·.1) <;> simp_all [Ne.symm h]

theorem nodup_addText {resources : List (String × String)} (h : (resources.map (·.1)).Nodup)
    (path text : String) : ((addText path text resources).map (·.1)).Nodup := by
  rw [map_fst_addText]
  split
  · exact h
  · next absent =>
    refine List.nodup_append.mpr ⟨h, by simp, fun p hp q hq same => absent ?_⟩
    rwa [← List.mem_singleton.mp hq, ← same]

theorem textsAt_of_nodup {resources : List (String × String)} (h : (resources.map (·.1)).Nodup)
    (path : String) : textsAt path resources = (textAt path resources).toList := by
  induction resources with
  | nil => rfl
  | cons r rest ih =>
    obtain ⟨absent, hr⟩ := List.nodup_cons.mp h
    rw [textsAt_cons, ih hr]
    by_cases hp : r.1 = path
    · subst hp
      have none : textAt r.1 rest = none := by
        refine Option.map_eq_none_iff.mpr (List.find?_eq_none.mpr fun s hs same => absent ?_)
        exact List.mem_map.mpr ⟨s, hs, by simpa using same⟩
      rw [if_pos rfl, none]
      simp [textAt]
    · simp [textAt, hp]

theorem textAt_of_perm {visited resources : List (String × String)}
    (order : visited.Perm resources) (h : (resources.map (·.1)).Nodup) (path : String) :
    textAt path visited = textAt path resources := by
  have nodup : (visited.map (·.1)).Nodup := (order.map _).nodup_iff.mpr h
  have perm : (textAt path visited).toList.Perm (textAt path resources).toList := by
    rw [← textsAt_of_nodup nodup, ← textsAt_of_nodup h]
    exact order.filterMap _
  cases ht : textAt path resources with
  | none =>
    rw [ht] at perm
    exact Option.toList_eq_nil_iff.mp perm.eq_nil
  | some text =>
    rw [ht] at perm
    exact Option.toList_eq_singleton_iff.mp (List.perm_singleton.mp perm)

inductive ResourceContext.Filled : List (String × String) → ResourceContext → Prop where
  | empty (name : String) : Filled [] (.empty name)
  | resource {added : List (String × String)} {x : ResourceContext} (before : Filled added x)
      (path text : String) : Filled (added ++ [(path, text)]) (x.add path text)
  | declare {added : List (String × String)} {x : ResourceContext} (before : Filled added x)
      (contract : String) (ids : List String) :
      Filled (added ++ [(servicePath contract, "\n".intercalate ids)]) (x.declare contract ids)

theorem ResourceContext.Filled.resources_eq {added : List (String × String)} {x : ResourceContext}
    (h : x.Filled added) : x.resources = added.foldl (fun rs r => addText r.1 r.2 rs) [] := by
  induction h with
  | empty name => rfl
  | resource before path text ih => rw [List.foldl_append, ← ih]; rfl
  | declare before contract ids ih => rw [List.foldl_append, ← ih]; rfl

theorem ResourceContext.Filled.nodup {added : List (String × String)} {x : ResourceContext}
    (h : x.Filled added) : (x.resources.map (·.1)).Nodup := by
  induction h with
  | empty name => exact .nil
  | resource before path text ih => exact nodup_addText ih path text
  | declare before contract ids ih => exact nodup_addText ih _ _

def storedAt (context path : String) (contexts : List ResourceContext) : Option String :=
  (contexts.find? fun x => x.name == context).bind fun x => x.get? path

theorem get?_merge (x : ResourceContext) {y : ResourceContext}
    (h : (y.resources.map (·.1)).Nodup) (path : String) :
    (x.merge y).get? path = ((y.get? path).map (joinOnto (x.get? path))).getD (x.get? path) := by
  have ht := textAt_foldl_addText path y.resources x.resources
  rw [textsAt_of_nodup h] at ht
  refine ht.trans ?_
  rw [show y.get? path = textAt path y.resources from rfl]
  cases textAt path y.resources <;> rfl

theorem storedAt_addContext (contexts : List ResourceContext) {y : ResourceContext}
    (h : (y.resources.map (·.1)).Nodup) (context path : String) :
    storedAt context path (addContext y contexts) =
      if y.name = context then
        ((y.get? path).map (joinOnto (storedAt context path contexts))).getD
          (storedAt context path contexts)
      else storedAt context path contexts := by
  induction contexts with
  | nil =>
    by_cases hn : y.name = context
    · cases ht : y.get? path <;> simp [storedAt, addContext, hn, ht, joinOnto, joinText_empty]
    · simp [storedAt, addContext, hn]
  | cons x rest ih =>
    rw [addContext]
    by_cases hx : x.name = y.name
    · rw [if_pos hx]
      by_cases hn : y.name = context
      · have named : (x.merge y).name = context := hx.trans hn
        simp [storedAt, hx, hn, named, get?_merge x h]
      · have named : (x.merge y).name ≠ context := fun e => hn (hx.symm.trans e)
        simp [storedAt, hx, hn, named]
    · rw [if_neg hx]
      by_cases hn : x.name = context
      · subst hn
        simp [storedAt, Ne.symm hx]
      · simpa [storedAt, hn] using ih

theorem ResourceContext.Filled.get?_eq {added : List (String × String)} {x : ResourceContext}
    (h : x.Filled added) (path : String) : x.get? path = joined (textsAt path added) := by
  have ht := textAt_foldl_addText path added []
  rw [← h.resources_eq] at ht
  exact ht

def textsIn (context path : String) (added : List (String × String × String)) : List String :=
  textsAt path (added.filterMap fun a => if a.1 = context then some a.2 else none)

variable {κ : Type} [ContractFamily κ] [DecidableEq κ]

/-- The builders that come of calls on an empty one, with the texts that the contexts brought: each
with the name of its context and its path, in order. The paths of a context are visited in any
order. -/
inductive Builder.Stocked : List (String × String × String) → Builder κ → Prop where
  | empty : Stocked [] .empty
  | register {added : List (String × String × String)} {b : Builder κ} (before : Stocked added b)
      (k : Registration κ) : Stocked added (k.apply b)
  | defaultContext {added : List (String × String × String)} {b : Builder κ}
      (before : Stocked added b) (name : String) : Stocked added (b.setDefaultContext name)
  | context {added : List (String × String × String)} {b : Builder κ} (before : Stocked added b)
      {x : ResourceContext} {brought visited : List (String × String)} (filled : x.Filled brought)
      (order : visited.Perm x.resources) :
      Stocked (added ++ brought.map (x.name, ·)) (b.context ⟨x.name, visited⟩)

theorem textsIn_append (context path name : String) (added : List (String × String × String))
    (brought : List (String × String)) :
    textsIn context path (added ++ brought.map (name, ·)) =
      textsIn context path added ++ if name = context then textsAt path brought else [] := by
  rw [textsIn, List.filterMap_append, textsAt, List.filterMap_append, ← textsAt, ← textsIn,
    List.filterMap_map]
  by_cases h : name = context <;> simp [h, textsAt]

theorem Builder.Stocked.storedAt_eq {added : List (String × String × String)} {b : Builder κ}
    (h : b.Stocked added) (context path : String) :
    storedAt context path b.contexts = joined (textsIn context path added) := by
  induction h with
  | empty => rfl
  | register before k ih => rwa [(k.contexts_apply _).1]
  | defaultContext before name ih => exact ih
  | @context added b before x brought visited filled order ih =>
    have nodup : (visited.map (·.1)).Nodup := (order.map _).nodup_iff.mpr filled.nodup
    have text : (⟨x.name, visited⟩ : ResourceContext).get? path = joined (textsAt path brought) :=
      (textAt_of_perm order filled.nodup path).trans (filled.get?_eq path)
    rw [Builder.context, storedAt_addContext _ nodup, text, ih, textsIn_append]
    by_cases hn : x.name = context
    · rw [if_pos hn, if_pos hn, joined_append]
    · rw [if_neg hn, if_neg hn, List.append_nil]

/-- Under a path of a context the builder keeps what was added there by whatever calls: the texts
joined in order, and nothing where there were none. The lines of the joined text are those of the
texts, none running into the next. It declares what these lines say, with the malformed lines
counted through all the texts and each id once, at its first place. What other paths hold, and the
order in which paths are visited, make no difference. -/
theorem parse_stored {added : List (String × String × String)} {b : Builder κ}
    (stocked : b.Stocked added) (context path : String) :
    let texts := textsIn context path added
    (storedAt context path b.contexts = none ↔ texts = []) ∧
    (∀ text, storedAt context path b.contexts = some text →
      Text.lines text.toList = texts.flatMap (fun t => Text.lines t.toList) ∧
      Declaration.parse text = (Declaration.said 0 texts).eraseDups ∧
      (Declaration.parse text).filter (·.id?.isNone) =
        (Declaration.said 0 texts).filter (·.id?.isNone) ∧
      ((Declaration.parse text).filterMap Declaration.id?).Nodup) ∧
    ∀ (b' : Builder κ) added', b'.Stocked added' → textsIn context path added' = texts →
      storedAt context path b'.contexts = storedAt context path b.contexts := by
  intro texts
  have stored := stocked.storedAt_eq context path
  refine ⟨by rw [stored, joined_eq_none_iff], fun text h => ?_, fun b' added' stocked' same => ?_⟩
  · have lines : Text.lines text.toList = texts.flatMap fun t => Text.lines t.toList := by
      rw [← lines_joined, ← stored, h, Option.getD_some]
    have said : Declaration.said 0 texts = Declaration.ofLines 1 (Text.lines text.toList) := by
      rw [Declaration.said_eq, lines]
    rw [said]
    exact ⟨lines, Declaration.parse_eq text, Declaration.filter_dropRepeated _ _,
      Declaration.nodup_dropRepeated _ _⟩
  · rw [stocked'.storedAt_eq, stored, same]

/-- Two contexts of one name bring three texts, and the paths of the second are visited backwards.
-/
theorem parse_stored_of_two_contexts :
    let x := ((ResourceContext.empty "x").declare "f" ["a", "b"]).add (servicePath "f")
      "b # again\r\nno id\r\n"
    let y := ((ResourceContext.empty "x").add "other" "z").add (servicePath "f") "a\nc\n\nnot one"
    let b : Builder Contract := (Builder.empty.context x).context ⟨"x", y.resources.reverse⟩
    ∃ text, storedAt "x" (servicePath "f") b.contexts = some text ∧
      Declaration.parse text = [.implementation "a", .implementation "b", .malformed 4 "no id",
        .implementation "c", .malformed 8 "not one"] := by
  intro x y b
  have first : x.Filled _ := .resource (.declare (.empty "x") "f" ["a", "b"]) _ _
  have second : y.Filled _ := .resource (.resource (.empty "x") _ _) _ _
  have once : (Builder.empty.context x : Builder Contract).Stocked _ :=
    .context (x := x) .empty first (List.Perm.refl _)
  have stocked : b.Stocked _ := .context (x := y) once second (List.reverse_perm _)
  obtain ⟨none, stored, -⟩ := parse_stored stocked "x" (servicePath "f")
  cases h : storedAt "x" (servicePath "f") b.contexts with
  | none => exact absurd (none.mp h) (by decide +kernel)
  | some text =>
    refine ⟨text, rfl, (stored text h).2.1.trans ?_⟩
    decide +kernel

end FramedMessaging.Discovery
