import TsBuild.Program.Reference
import TsBuild.Proofs.Text.Affixes

/-!
# Directives of a text

What a text refers to is told here by the lines that it is made of and by what stands in a line (`Refers`), not by
the scan that finds it. The scan finds that and nothing else (`mem_ofText_iff`).
-/

namespace TsBuild.Text

-- ---------------------------------------------------------------------------
-- Lines
-- ---------------------------------------------------------------------------

/-- A line of a text. A return in front of its line feed is no part of it, and what stands behind the last line feed
is a line unless it is empty. -/
inductive IsLine (cs line : List Char) : Prop
  | ended (hcs : cs = before ++ (line ++ '\n' :: after)) (hlead : IsLead '\n' before) (hline : '\n' ∉ line)
      (hreturn : line.getLast? ≠ some '\r')
  | returned (hcs : cs = before ++ (line ++ '\r' :: '\n' :: after)) (hlead : IsLead '\n' before)
      (hline : '\n' ∉ line)
  | last (hcs : cs = before ++ line) (hlead : IsLead '\n' before) (hline : '\n' ∉ line) (hne : line ≠ [])

variable {cs line before after piece : List Char} {sep : Char}

theorem splitOn_lead (hlead : IsLead sep before) :
    ∃ above, ∀ cs, splitOn sep (before ++ cs) = above ++ splitOn sep cs := by
  rcases hlead with rfl | hlast
  · exact ⟨[], fun _ => rfl⟩
  · obtain ⟨first, rfl⟩ := List.getLast?_eq_some_iff.mp hlast
    exact ⟨splitOn sep first, fun cs => by rw [List.append_assoc, List.singleton_append, splitOn_append]⟩

theorem splitOn_eq_append_lastPiece (sep : Char) (cs : List Char) :
    splitOn sep cs = (splitOn sep cs).dropLast ++ [lastPiece sep cs] := by
  obtain ⟨before, hcs, hlead, hpiece⟩ := exists_lastPiece sep cs
  obtain ⟨above, habove⟩ := splitOn_lead hlead
  have hsplit : splitOn sep cs = above ++ [lastPiece sep cs] := by
    rw [← splitOn_of_notMem hpiece, ← habove, ← hcs]
  rw [hsplit, List.dropLast_concat]

theorem exists_of_mem_dropLast (cs : List Char) (hmem : piece ∈ (splitOn sep cs).dropLast) :
    ∃ before after, cs = before ++ (piece ++ sep :: after) ∧ IsLead sep before := by
  obtain ⟨lead, hcs, hlead, hlast⟩ := exists_lastPiece sep cs
  rcases hlead with rfl | hsep
  · rw [hcs, List.nil_append, splitOn_of_notMem hlast] at hmem
    cases hmem
  · obtain ⟨front, rfl⟩ := List.getLast?_eq_some_iff.mp hsep
    rw [List.append_assoc, List.singleton_append] at hcs
    have hlength : front.length < cs.length := by
      have hcount := congrArg List.length hcs
      rw [List.length_append, List.length_cons] at hcount
      omega
    obtain ⟨last, hpiece⟩ : ∃ last, lastPiece sep cs = last := ⟨_, rfl⟩
    rw [hpiece] at hcs hlast
    rw [hcs, splitOn_append, splitOn_of_notMem hlast, List.dropLast_concat, splitOn_eq_append_lastPiece sep front,
      List.mem_append, List.mem_singleton] at hmem
    rcases hmem with hmem | rfl
    · obtain ⟨before, after, hfront, hbefore⟩ := exists_of_mem_dropLast front hmem
      exact ⟨before, after ++ sep :: last, by simp [hcs, hfront], hbefore⟩
    · obtain ⟨before, hfront, hbefore, -⟩ := exists_lastPiece sep front
      exact ⟨before, last, by rw [hcs, ← List.append_assoc, ← hfront], hbefore⟩
termination_by cs.length

theorem mem_dropLast_splitOn : piece ∈ (splitOn sep cs).dropLast ↔
    sep ∉ piece ∧ ∃ before after, cs = before ++ (piece ++ sep :: after) ∧ IsLead sep before := by
  constructor
  · intro hmem
    exact ⟨notMem_of_mem_splitOn (List.dropLast_subset _ hmem), exists_of_mem_dropLast cs hmem⟩
  · rintro ⟨hpiece, before, after, rfl, hlead⟩
    obtain ⟨above, habove⟩ := splitOn_lead hlead
    rw [habove, splitOn_append, splitOn_of_notMem hpiece, splitOn_eq_append_lastPiece sep after, ← List.append_assoc,
      ← List.append_assoc, List.dropLast_concat]
    simp

theorem mem_lines_iff : line ∈ lines cs ↔ IsLine cs line := by
  have hgetLast : (splitOn '\n' cs).getLast? = some (lastPiece '\n' cs) := by
    rw [splitOn_eq_append_lastPiece, List.getLast?_concat]
  have hlines : line ∈ lines cs ↔
      (∃ piece ∈ (splitOn '\n' cs).dropLast,
        (if piece.getLast? = some '\r' then piece.dropLast else piece) = line) ∨
      line = lastPiece '\n' cs ∧ line ≠ [] := by
    rw [lines, List.mem_append, List.mem_map, hgetLast]
    simp [and_comm]
  rw [hlines]
  constructor
  · rintro (⟨piece, hmem, rfl⟩ | ⟨hline, hne⟩)
    · obtain ⟨hpiece, before, after, rfl, hlead⟩ := mem_dropLast_splitOn.mp hmem
      split
      · rename_i hreturn
        obtain ⟨line, rfl⟩ := List.getLast?_eq_some_iff.mp hreturn
        rw [List.dropLast_concat]
        exact .returned (by rw [List.append_assoc, List.singleton_append]) hlead fun hmem =>
          hpiece (List.mem_append_left _ hmem)
      · rename_i hreturn
        exact .ended rfl hlead hpiece hreturn
    · obtain ⟨before, hcs, hlead, hlast⟩ := exists_lastPiece '\n' cs
      rw [← hline] at hcs hlast
      exact .last hcs hlead hlast hne
  · rintro (@⟨before, after, rfl, hlead, hline, hreturn⟩ | @⟨before, after, rfl, hlead, hline⟩ |
      @⟨before, rfl, hlead, hline, hne⟩)
    · exact .inl ⟨line, mem_dropLast_splitOn.mpr ⟨hline, before, after, rfl, hlead⟩, if_neg hreturn⟩
    · refine .inl ⟨line ++ ['\r'], mem_dropLast_splitOn.mpr ⟨?_, before, after, ?_, hlead⟩, ?_⟩
      · simpa using hline
      · rw [List.append_assoc, List.singleton_append]
      · rw [List.getLast?_concat, if_pos rfl, List.dropLast_concat]
    · refine .inr ⟨?_, hne⟩
      obtain ⟨above, habove⟩ := splitOn_lead hlead
      rw [habove, splitOn_of_notMem hline, List.getLast?_concat, Option.some.injEq] at hgetLast
      exact hgetLast

end TsBuild.Text

namespace TsBuild.Program.Reference

open TsBuild.Text (CutsAt IsLine)

-- ---------------------------------------------------------------------------
-- Attributes
-- ---------------------------------------------------------------------------

def opening (name : List Char) (quote : Char) : List Char := ' ' :: name ++ ['=', quote]

/-- The value goes from the first opening of the attribute to the next quote, or to the end. -/
inductive IsQuoted (directive name : List Char) (quote : Char) (value : List Char) : Prop
  | closed (h : CutsAt (opening name quote) directive before (value ++ quote :: after)) (hvalue : quote ∉ value)
  | unclosed (h : CutsAt (opening name quote) directive before value) (hvalue : quote ∉ value)

/-- A directive gives an attribute a value: between double quotes, or else between single ones. -/
inductive HasAttribute (directive name value : List Char) : Prop
  | double (h : IsQuoted directive name '"' value)
  | single (hdouble : ¬ opening name '"' <:+: directive) (h : IsQuoted directive name '\'' value)

structure IsDirective (line directive : List Char) : Prop where
  spell : ∃ indent gap, line = indent ++ ("///".toList ++ (gap ++ directive)) ∧
    (∀ c ∈ indent, Text.isBlank c = true) ∧ ∀ c ∈ gap, Text.isBlank c = true
  begins : "<reference".toList <+: directive

/-- A line refers to a path, or to types if it gives no path. -/
inductive Directs (line : List Char) : Reference → Prop
  | path (h : IsDirective line directive) (hpath : HasAttribute directive "path".toList target.toList) :
      Directs line (.path target)
  | types (h : IsDirective line directive) (hpath : ∀ value, ¬ HasAttribute directive "path".toList value)
      (htypes : HasAttribute directive "types".toList package.toList) : Directs line (.types package)

def Refers (text : String) (reference : Reference) : Prop :=
  ∃ line, IsLine text.toList line ∧ Directs line reference

-- ---------------------------------------------------------------------------
-- What the scan finds
-- ---------------------------------------------------------------------------

variable {directive name value line : List Char} {quote : Char} {reference : Reference}

theorem quotedAttribute_eq_some :
    quotedAttribute? directive name quote = some value ↔ IsQuoted directive name quote value := by
  have hall : quote ∉ value → ∀ c ∈ value, decide (c ≠ quote) = true := fun hvalue c hc =>
    decide_eq_true fun heq => hvalue (heq ▸ hc)
  rw [quotedAttribute?, Option.map_eq_some_iff]
  constructor
  · rintro ⟨⟨before, after⟩, hcut, rfl⟩
    have hcut := Text.cutAt_eq_some_iff.mp hcut
    have hvalue : quote ∉ after.takeWhile (· ≠ quote) := fun hmem => by
      simpa using List.all_eq_true.mp List.all_takeWhile quote hmem
    have hsplit := List.takeWhile_append_dropWhile (p := (· ≠ quote)) (l := after)
    cases hrest : after.dropWhile (· ≠ quote) with
    | nil =>
      rw [hrest, List.append_nil] at hsplit
      exact .unclosed (hsplit.symm ▸ hcut) hvalue
    | cons c rest =>
      have hhead := List.head?_dropWhile_not (· ≠ quote) after
      rw [hrest] at hhead hsplit
      obtain rfl : c = quote := by simpa using hhead
      exact .closed (by rwa [hsplit]) hvalue
  · rintro (@⟨before, after, h, hvalue⟩ | @⟨before, h, hvalue⟩)
    · refine ⟨_, Text.cutAt_eq_some_iff.mpr h, ?_⟩
      change (value ++ quote :: after).takeWhile (· ≠ quote) = value
      rw [List.takeWhile_append_of_pos (hall hvalue), List.takeWhile_cons_of_neg (by simp), List.append_nil]
    · refine ⟨_, Text.cutAt_eq_some_iff.mpr h, ?_⟩
      change value.takeWhile (· ≠ quote) = value
      rw [← List.append_nil value, List.takeWhile_append_of_pos (hall hvalue), List.takeWhile_nil]

theorem quotedAttribute_eq_none :
    quotedAttribute? directive name quote = none ↔ ¬ opening name quote <:+: directive := by
  rw [quotedAttribute?, Option.map_eq_none_iff]
  exact Text.cutAt_eq_none_iff

theorem attribute_eq_some : attribute? directive name = some value ↔ HasAttribute directive name value := by
  rw [attribute?]
  cases hdouble : quotedAttribute? directive name '"' with
  | some other =>
    have hopening : ¬¬ opening name '"' <:+: directive := fun hnot => by
      rw [quotedAttribute_eq_none.mpr hnot] at hdouble
      cases hdouble
    have hquoted : some other = some value ↔ IsQuoted directive name '"' value :=
      hdouble ▸ quotedAttribute_eq_some
    refine hquoted.trans ⟨.double, ?_⟩
    rintro (h | ⟨hnot, -⟩)
    · exact h
    · exact absurd hnot hopening
  | none =>
    refine quotedAttribute_eq_some.trans ⟨.single (quotedAttribute_eq_none.mp hdouble), ?_⟩
    rintro (h | ⟨-, h⟩)
    · rw [quotedAttribute_eq_some.mpr h] at hdouble
      cases hdouble
    · exact h

theorem attribute_eq_none : attribute? directive name = none ↔ ∀ value, ¬ HasAttribute directive name value := by
  rw [Option.eq_none_iff_forall_ne_some]
  exact forall_congr' fun value => not_congr attribute_eq_some

theorem dropWhile_blanks {c : Char} (hblanks : ∀ d ∈ blanks, Text.isBlank d = true) (hc : Text.isBlank c = false)
    (cs : List Char) : (blanks ++ c :: cs).dropWhile Text.isBlank = c :: cs := by
  rw [List.dropWhile_append_of_pos hblanks, List.dropWhile_cons_of_neg (by simp [hc])]

theorem isDirective_iff : IsDirective line directive ↔
    ∃ rest, Text.dropPrefix? "///".toList (line.dropWhile Text.isBlank) = some rest ∧
      rest.dropWhile Text.isBlank = directive ∧ Text.startsWith "<reference".toList directive = true := by
  constructor
  · rintro ⟨⟨indent, gap, rfl, hindent, hgap⟩, hbegins⟩
    obtain ⟨rest, rfl⟩ := hbegins
    refine ⟨gap ++ ("<reference".toList ++ rest), ?_, dropWhile_blanks hgap (by decide) _,
      Text.startsWith_iff.mpr (List.prefix_append _ _)⟩
    exact Text.dropPrefix_eq_some.mpr (dropWhile_blanks hindent (by decide) _)
  · rintro ⟨rest, hslashes, rfl, hbegins⟩
    refine ⟨⟨line.takeWhile Text.isBlank, rest.takeWhile Text.isBlank, ?_, fun c hc => ?_, fun c hc => ?_⟩,
      Text.startsWith_iff.mp hbegins⟩
    · rw [List.takeWhile_append_dropWhile, ← Text.dropPrefix_eq_some.mp hslashes, List.takeWhile_append_dropWhile]
    · exact List.all_eq_true.mp List.all_takeWhile c hc
    · exact List.all_eq_true.mp List.all_takeWhile c hc

theorem ofLine_eq_some : ofLine? line = some reference ↔ Directs line reference := by
  have hline : ofLine? line = some reference ↔ ∃ directive, IsDirective line directive ∧
      (((attribute? directive "path".toList).map fun value => Reference.path (String.ofList value)) <|>
        (attribute? directive "types".toList).map fun value => Reference.types (String.ofList value)) =
          some reference := by
    simp only [ofLine?, isDirective_iff, bind, Option.bind_eq_some_iff, guard]
    constructor
    · rintro ⟨rest, hslashes, _, hbegins, h⟩
      split at hbegins
      · rename_i hreference
        exact ⟨_, ⟨rest, hslashes, rfl, hreference⟩, h⟩
      · cases hbegins
    · rintro ⟨_, ⟨rest, hslashes, rfl, hbegins⟩, h⟩
      exact ⟨rest, hslashes, (), if_pos hbegins, h⟩
  rw [hline]
  constructor
  · rintro ⟨directive, hdirective, h⟩
    cases hpath : attribute? directive "path".toList with
    | some value =>
      rw [hpath] at h
      cases h
      exact .path hdirective (by simpa using attribute_eq_some.mp hpath)
    | none =>
      rw [hpath] at h
      obtain ⟨value, htypes, rfl⟩ := Option.map_eq_some_iff.mp h
      exact .types hdirective (attribute_eq_none.mp hpath) (by simpa using attribute_eq_some.mp htypes)
  · rintro (⟨hdirective, hpath⟩ | ⟨hdirective, hpath, htypes⟩)
    · refine ⟨_, hdirective, ?_⟩
      rw [attribute_eq_some.mpr hpath]
      simp
    · refine ⟨_, hdirective, ?_⟩
      rw [attribute_eq_none.mpr hpath, attribute_eq_some.mpr htypes]
      simp

theorem mem_ofText_iff : reference ∈ ofText text ↔ Refers text reference := by
  rw [ofText, List.mem_filterMap]
  exact exists_congr fun line => and_congr Text.mem_lines_iff ofLine_eq_some

end TsBuild.Program.Reference
