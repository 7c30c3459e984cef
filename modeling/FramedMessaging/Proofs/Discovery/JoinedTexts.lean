import FramedMessaging.Discovery
import Mathlib.Data.List.Induction
/-!
Texts joined one below the other: joining is associative, the lines of the whole are those of the
texts in order, and the whole declares what the texts declare line by line, each id once.
-/
set_option autoImplicit false

namespace FramedMessaging

namespace Text

theorem splitAt_ne_nil (separator : Char) (s : List Char) : splitAt separator s ≠ [] := by
  cases s with
  | nil => simp [splitAt]
  | cons c rest =>
    rw [splitAt]
    split
    · simp
    · split <;> simp

@[simp] theorem splitAt_separator (separator : Char) (s : List Char) :
    splitAt separator (separator :: s) = [] :: splitAt separator s := by
  rw [splitAt]
  split
  · next h => exact absurd h (splitAt_ne_nil _ _)
  · next h => rw [h, if_pos rfl]

theorem splitAt_cons {separator c : Char} {s part : List Char} {parts : List (List Char)}
    (ne : c ≠ separator) (h : splitAt separator s = part :: parts) :
    splitAt separator (c :: s) = (c :: part) :: parts := by
  simp [splitAt, h, ne]

theorem splitAt_append_separator (separator : Char) (s t : List Char) :
    splitAt separator (s ++ separator :: t) = splitAt separator s ++ splitAt separator t := by
  induction s with
  | nil => simp [splitAt]
  | cons c s ih =>
    obtain ⟨part, parts, hs⟩ := List.exists_cons_of_ne_nil (splitAt_ne_nil separator s)
    rw [hs] at ih
    by_cases hc : c = separator
    · subst hc
      simp [ih, hs]
    · rw [splitAt_cons hc hs, List.cons_append, splitAt_cons hc ih]
      rfl

theorem splitAt_concat {separator c : Char} (ne : c ≠ separator) (s : List Char) :
    ∃ parts part, splitAt separator s = parts ++ [part] ∧
      splitAt separator (s ++ [c]) = parts ++ [part ++ [c]] := by
  induction s with
  | nil => exact ⟨[], [], rfl, splitAt_cons ne rfl⟩
  | cons d s ih =>
    obtain ⟨parts, part, hs, hc⟩ := ih
    by_cases hd : d = separator
    · subst hd
      exact ⟨[] :: parts, part, by simp [hs], by simp [hc]⟩
    · cases parts with
      | nil => exact ⟨[], d :: part, splitAt_cons hd hs, splitAt_cons hd hc⟩
      | cons first parts =>
        exact ⟨(d :: first) :: parts, part, splitAt_cons hd hs, splitAt_cons hd hc⟩

theorem lines_append_newline (s t : List Char) :
    lines (s ++ '\n' :: t) = splitAt '\n' s ++ lines t := by
  rw [lines, lines, splitAt_append_separator, List.reverse_append]
  obtain ⟨last, earlier, h⟩ :=
    List.exists_cons_of_ne_nil (List.reverse_ne_nil_iff.mpr (splitAt_ne_nil '\n' t))
  rw [h]
  cases last <;> simp

theorem lines_concat {c : Char} (ne : c ≠ '\n') (s : List Char) :
    lines (s ++ [c]) = splitAt '\n' (s ++ [c]) := by
  obtain ⟨parts, part, -, h⟩ := splitAt_concat ne s
  rw [lines, h]
  cases part <;> simp

def lineEnd (s : List Char) : List Char :=
  match s.getLast? with
  | none => []
  | some '\n' => []
  | some _ => ['\n']

@[simp] theorem lines_nil : lines [] = [] := rfl

@[simp] theorem lineEnd_nil : lineEnd [] = [] := rfl

theorem lineEnd_append (s : List Char) {t : List Char} (ne : t ≠ []) :
    lineEnd (s ++ t) = lineEnd t := by
  rw [lineEnd, List.getLast?_append, List.getLast?_eq_some_getLast ne, lineEnd,
    List.getLast?_eq_some_getLast ne]
  rfl

theorem lineEnd_concat (s : List Char) (c : Char) :
    lineEnd (s ++ [c]) = if c = '\n' then [] else ['\n'] := by
  rw [lineEnd, List.getLast?_concat]
  split
  · simp_all
  · simp_all
  · next h => simp_all

theorem lines_append_lineEnd (s t : List Char) :
    lines (s ++ lineEnd s ++ t) = lines s ++ lines t := by
  induction s using List.reverseRecOn with
  | nil => rfl
  | append_singleton s c =>
    rw [lineEnd_concat]
    by_cases hc : c = '\n'
    · subst hc
      simp [lines_append_newline]
    · rw [if_neg hc, List.append_assoc (s ++ [c]), List.singleton_append, lines_append_newline,
        lines_concat hc]

end Text

namespace Discovery

open Text

theorem toList_joinText (existing text : String) :
    (joinText existing text).toList =
      existing.toList ++ lineEnd existing.toList ++ text.toList := by
  rw [joinText, lineEnd]
  split <;> simp_all

theorem joinText_empty (text : String) : joinText "" text = text := rfl

theorem lineEnd_joined (s : List Char) : lineEnd (s ++ lineEnd s) = [] := by
  induction s using List.reverseRecOn with
  | nil => rfl
  | append_singleton s c =>
    rw [lineEnd_concat]
    by_cases hc : c = '\n'
    · rw [if_pos hc, List.append_nil, lineEnd_concat, if_pos hc]
    · rw [if_neg hc, lineEnd_concat, if_pos rfl]

theorem joinText_assoc (s t u : String) :
    joinText (joinText s t) u = joinText s (joinText t u) := by
  apply String.toList_inj.mp
  simp only [toList_joinText]
  by_cases ne : t.toList = []
  · simp [ne, lineEnd_joined]
  · rw [lineEnd_append _ ne]
    simp only [List.append_assoc]

theorem lines_joinText (s t : String) :
    lines (joinText s t).toList = lines s.toList ++ lines t.toList := by
  rw [toList_joinText, lines_append_lineEnd]

def joinOnto (text : Option String) (t : String) : Option String :=
  some (joinText (text.getD "") t)

def joined (texts : List String) : Option String := texts.foldl joinOnto none

theorem joined_concat (texts : List String) (t : String) :
    joined (texts ++ [t]) = joinOnto (joined texts) t := by
  rw [joined, List.foldl_append]
  rfl

theorem joined_append (texts others : List String) :
    joined (texts ++ others) =
      ((joined others).map (joinOnto (joined texts))).getD (joined texts) := by
  induction others using List.reverseRecOn with
  | nil => simp [joined]
  | append_singleton others t ih =>
    rw [← List.append_assoc, joined_concat, joined_concat, ih]
    cases joined others with
    | none => rfl
    | some s => exact congrArg some (joinText_assoc _ s t)

@[simp] theorem joined_eq_none_iff (texts : List String) : joined texts = none ↔ texts = [] := by
  induction texts using List.reverseRecOn with
  | nil => simp [joined]
  | append_singleton texts t ih => simp [joined_concat, joinOnto]

theorem lines_joined (texts : List String) :
    lines ((joined texts).getD "").toList = texts.flatMap fun t => lines t.toList := by
  induction texts using List.reverseRecOn with
  | nil => rfl
  | append_singleton texts t ih =>
    rw [joined_concat, joinOnto, Option.getD_some, lines_joinText, ih, List.flatMap_append,
      List.flatMap_singleton]

namespace Declaration

def shift (n : Nat) : Declaration → Declaration
  | implementation id => implementation id
  | malformed line text => malformed (n + line) text

/-- What the texts say one after the other, line by line and with repetitions, where `before` lines
come before the first text. -/
def said : Nat → List String → List Declaration
  | _, [] => []
  | before, text :: rest =>
    (ofLines 1 (lines text.toList)).map (shift before) ++
      said (before + (lines text.toList).length) rest

theorem ofLine_add (n number : Nat) (line : List Char) :
    ofLine (n + number) line = (ofLine number line).map (shift n) := by
  unfold ofLine
  dsimp only
  split
  · rfl
  · split <;> rfl

theorem ofLines_add (n number : Nat) (ls : List (List Char)) :
    ofLines (n + number) ls = (ofLines number ls).map (shift n) := by
  induction ls generalizing number with
  | nil => rfl
  | cons line rest ih =>
    rw [ofLines, ofLines, ofLine_add, Nat.add_assoc, ih, List.map_append, Option.toList_map]

theorem ofLines_append (number : Nat) (ls ms : List (List Char)) :
    ofLines number (ls ++ ms) = ofLines number ls ++ ofLines (number + ls.length) ms := by
  induction ls generalizing number with
  | nil => rfl
  | cons line rest ih =>
    rw [List.cons_append, ofLines, ofLines, ih, List.append_assoc, List.length_cons]
    simp only [Nat.add_assoc, Nat.add_comm 1]

theorem said_eq (before : Nat) (texts : List String) :
    said before texts = ofLines (before + 1) (texts.flatMap fun t => lines t.toList) := by
  induction texts generalizing before with
  | nil => rfl
  | cons text rest ih =>
    rw [said, ih, List.flatMap_cons, ofLines_append, ← ofLines_add, Nat.add_right_comm]

theorem le_of_mem_ofLines {number line : Nat} {text : String} {ls : List (List Char)}
    (h : malformed line text ∈ ofLines number ls) : number ≤ line := by
  induction ls generalizing number with
  | nil => simp [ofLines] at h
  | cons l rest ih =>
    rw [ofLines, List.mem_append, Option.mem_toList] at h
    rcases h with h | h
    · unfold ofLine at h
      dsimp only at h
      split at h
      · cases h
      · split at h
        · cases h
        · cases h
          exact Nat.le_refl _
    · exact Nat.le_of_succ_le (ih h)

theorem pairwise_ofLines (number : Nat) (ls : List (List Char)) :
    (ofLines number ls).Pairwise fun d e => d.id? = none → d ≠ e := by
  induction ls generalizing number with
  | nil => exact .nil
  | cons line rest ih =>
    rw [ofLines]
    unfold ofLine
    dsimp only
    split
    · exact ih _
    · split
      · exact .cons (fun e _ h => by cases h) (ih _)
      · refine .cons (fun e he _ same => ?_) (ih _)
        subst same
        exact Nat.not_succ_le_self _ (le_of_mem_ofLines he)

theorem dropRepeated_eq {seen : List String} {ds : List Declaration}
    (distinct : ds.Pairwise fun d e => d.id? = none → d ≠ e) :
    dropRepeated seen ds = (ds.filter fun d => d.id?.all fun id => id ∉ seen).eraseDups := by
  fun_induction dropRepeated seen ds with
  | case1 => simp
  | case2 seen line text rest ih =>
    obtain ⟨others, distinct⟩ := List.pairwise_cons.mp distinct
    rw [List.filter_cons_of_pos (by simp [id?]), List.eraseDups_cons, ih distinct]
    congr 2
    refine (List.filter_eq_self.mpr fun d hd => ?_).symm
    simpa using (others d (List.mem_filter.mp hd).1 rfl).symm
  | case3 seen id rest repeated ih =>
    rw [List.filter_cons_of_neg (by simpa [id?] using repeated),
      ih (List.pairwise_cons.mp distinct).2]
  | case4 seen id rest first ih =>
    rw [List.filter_cons_of_pos (by simpa [id?] using first), List.eraseDups_cons,
      ih (List.pairwise_cons.mp distinct).2, List.filter_filter]
    congr 2
    refine List.filter_congr fun d hd => ?_
    cases d with
    | malformed line text => rfl
    | implementation other => by_cases h : other = id <;> simp [id?, h]

/-- What a text declares is what its lines say, without the ids that came before. -/
theorem parse_eq (text : String) : parse text = (ofLines 1 (lines text.toList)).eraseDups := by
  rw [parse, dropRepeated_eq (pairwise_ofLines _ _)]
  congr 1
  exact List.filter_eq_self.mpr fun d hd => by simp

theorem filter_dropRepeated (seen : List String) (ds : List Declaration) :
    (dropRepeated seen ds).filter (·.id?.isNone) = ds.filter (·.id?.isNone) := by
  fun_induction dropRepeated seen ds <;> simp_all [id?]

theorem mem_filterMap_id? {id : String} {ds : List Declaration} :
    id ∈ ds.filterMap id? ↔ implementation id ∈ ds := by
  rw [List.mem_filterMap]
  constructor
  · rintro ⟨d, hd, h⟩
    cases d with
    | malformed => cases h
    | implementation =>
      cases h
      exact hd
  · exact fun h => ⟨_, h, rfl⟩

theorem not_mem_dropRepeated {seen : List String} {id : String} (h : id ∈ seen)
    (ds : List Declaration) : implementation id ∉ dropRepeated seen ds := by
  fun_induction dropRepeated seen ds with
  | case1 => simp
  | case2 seen line text rest ih => simpa using ih h
  | case3 seen other rest repeated ih => exact ih h
  | case4 seen other rest first ih =>
    rw [List.mem_cons, not_or]
    refine ⟨?_, ih (List.mem_cons_of_mem _ h)⟩
    rintro ⟨⟩
    exact first h

theorem nodup_dropRepeated (seen : List String) (ds : List Declaration) :
    ((dropRepeated seen ds).filterMap id?).Nodup := by
  fun_induction dropRepeated seen ds with
  | case1 => exact .nil
  | case2 seen line text rest ih => exact ih
  | case3 seen id rest repeated ih => exact ih
  | case4 seen id rest first ih =>
    refine List.nodup_cons.mpr ⟨fun h => ?_, ih⟩
    exact not_mem_dropRepeated List.mem_cons_self rest (mem_filterMap_id?.mp h)

end Declaration

end Discovery

end FramedMessaging
