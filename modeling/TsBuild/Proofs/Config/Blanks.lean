import TsBuild.Config.Comments
import TsBuild.Json.Reader

/-!
# Blanks in place

Comments and trailing commas become blanks where they stand (`blanked_blankComments`, `blanked_blankCommas`), so a
byte offset is on the same line and in the same column of the blanked text as of the text as written
(`lineColumn_strip`).
-/

namespace TsBuild.Config.Comments

/-- The second text is the first with some characters turned into as many spaces as they have bytes; line feeds
stay. -/
inductive Blanked : List Char → List Char → Prop
  | nil : Blanked [] []
  | keep (c : Char) : Blanked as bs → Blanked (c :: as) (c :: bs)
  | blank (c : Char) : Blanked as bs → Blanked (c :: as) (blank c ++ bs)

theorem blanked_blankComments (region : Region) (cs : List Char) : Blanked cs (blankComments region cs) := by
  fun_induction blankComments region cs with
  | case1 => exact .nil
  | case2 c cs ih => exact ih.keep c
  | case3 c cs ih => exact ih.keep c
  | case4 cs ih => exact ih.keep '\n'
  | case5 c cs _ ih => exact ih.blank c
  | case6 cs ih => exact (ih.blank '/').blank '*'
  | case7 c cs _ ih => exact ih.blank c
  | case8 cs ih => exact (ih.blank '/').blank '/'
  | case9 cs ih => exact (ih.blank '*').blank '/'
  | case10 c cs _ _ ih => exact ih.keep c

theorem blanked_blankCommas (region : Region) (cs : List Char) : Blanked cs (blankCommas region cs) := by
  fun_induction blankCommas region cs with
  | case1 => exact .nil
  | case2 c cs ih => exact ih.keep c
  | case3 c cs ih => exact ih.keep c
  | case4 region c cs _ _ hcomma ih =>
    have hc : c = ',' := of_decide_eq_true (Bool.and_eq_true_iff.mp hcomma).1
    subst hc
    exact ih.blank ','
  | case5 region c cs _ _ _ ih => exact ih.keep c

theorem byteLength_replicate_space (n : Nat) : Text.byteLength (List.replicate n ' ') = n := by
  induction n with
  | zero => rfl
  | succ n ih =>
    rw [List.replicate_succ, Text.byteLength, ih]
    exact Nat.add_comm 1 n

theorem byteLength_blank (c : Char) : Text.byteLength (blank c) = c.utf8Size := by
  rw [blank]
  split
  · next hc =>
    subst hc
    rfl
  · exact byteLength_replicate_space c.utf8Size

theorem Blanked.byteLength_eq (h : Blanked as bs) : Text.byteLength bs = Text.byteLength as := by
  induction h with
  | nil => rfl
  | keep c _ ih => rw [Text.byteLength, Text.byteLength, ih]
  | blank c _ ih => rw [Text.byteLength_append, Text.byteLength, byteLength_blank, ih]

theorem lineColumn_zero (line column : Nat) (cs : List Char) :
    Json.lineColumn line column cs 0 = (line, column) := by
  cases cs <;> rfl

theorem lineColumn_spaces (line column n : Nat) (cs : List Char) (offset : Nat) :
    Json.lineColumn line column (List.replicate n ' ' ++ cs) offset =
      Json.lineColumn line (column + min offset n) cs (offset - n) := by
  induction n generalizing column offset with
  | zero => rw [List.replicate_zero, List.nil_append, Nat.min_zero, Nat.add_zero, Nat.sub_zero]
  | succ n ih =>
    have hspace : (' ' : Char).utf8Size = 1 := rfl
    by_cases hzero : offset = 0
    · rw [hzero, lineColumn_zero, Nat.zero_sub, lineColumn_zero, Nat.zero_min, Nat.add_zero]
    · rw [List.replicate_succ, List.cons_append, Json.lineColumn, if_neg hzero, if_neg (by decide), ih, hspace]
      congr 1 <;> omega

theorem lineColumn_blank (line column : Nat) (c : Char) (cs : List Char) (offset : Nat) :
    Json.lineColumn line column (blank c ++ cs) offset = Json.lineColumn line column (c :: cs) offset := by
  rw [blank]
  split
  · next hc => rw [hc, List.singleton_append]
  · next hc =>
    rw [lineColumn_spaces, Json.lineColumn, if_neg hc]
    split
    · next hzero => rw [hzero, Nat.zero_sub, lineColumn_zero, Nat.zero_min, Nat.add_zero]
    · rfl

theorem Blanked.lineColumn_eq (h : Blanked as bs) (line column offset : Nat) :
    Json.lineColumn line column bs offset = Json.lineColumn line column as offset := by
  induction h generalizing line column offset with
  | nil => rfl
  | keep c _ ih => simp only [Json.lineColumn, ih]
  | blank c _ ih =>
    rw [lineColumn_blank]
    simp only [Json.lineColumn, ih]

theorem lineColumn_strip (text : String) (offset : Nat) :
    Json.lineColumn 1 0 (strip text).toList offset = Json.lineColumn 1 0 text.toList offset := by
  rw [strip, String.toList_ofList, (blanked_blankCommas .plain _).lineColumn_eq,
    (blanked_blankComments .plain _).lineColumn_eq]

theorem byteLength_strip (text : String) : Text.byteLength (strip text).toList = Text.byteLength text.toList := by
  rw [strip, String.toList_ofList, (blanked_blankCommas .plain _).byteLength_eq,
    (blanked_blankComments .plain _).byteLength_eq]

end TsBuild.Config.Comments
