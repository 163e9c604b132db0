import TsBuild.Config.Text
import TsBuild.Proofs.Config.Decoration
import TsBuild.Proofs.Json.Phrase

/-!
# The scan for a key

The scan for a key knows nothing of the text but how many brackets are open. A string is the key that it looks for
if it stands at the right depth and before a colon (`scan_string`). Deeper than that key the scan goes over a phrase
without finding anything (`scan_phrase`).
-/

namespace TsBuild.Config.Key

open Json (Phrase Gap Blanks Body Kind Document)
open Json.Reader (isBlank)
open Text (byteLength)

variable {path : List (List Char)} {offset depth matched : Nat} {cs rest : List Char}

-- ---------------------------------------------------------------------------
-- Between brackets and strings
-- ---------------------------------------------------------------------------

def IsIdle (c : Char) : Prop := c ∉ ['"', '\x7b', '[', '\x7d', ']']

theorem isIdle_of_isWord {c : Char} (h : Json.isWord c) : IsIdle c := by
  intro hmem
  simp only [List.mem_cons, List.not_mem_nil, or_false] at hmem
  rcases hmem with rfl | rfl | rfl | rfl | rfl <;> exact absurd h (by decide)

theorem isIdle_of_isBlank {c : Char} (h : isBlank c) : IsIdle c := by
  intro hmem
  simp only [List.mem_cons, List.not_mem_nil, or_false] at hmem
  rcases hmem with rfl | rfl | rfl | rfl | rfl <;> exact absurd h (by decide)

theorem isIdle_gap {mark : Option Char} (gap : Gap mark) (h : ∀ c ∈ mark, IsIdle c) : ∀ c ∈ gap.text, IsIdle c := by
  simp only [Gap.text, List.mem_append, Option.mem_toList]
  rintro c (hc | hc | hc)
  · exact isIdle_of_isBlank (gap.before.2 c hc)
  · exact h c hc
  · exact isIdle_of_isBlank (gap.after.2 c hc)

theorem isIdle_comma {behind : Bool} : ∀ c ∈ Json.comma behind, IsIdle c := by
  cases behind <;> simp [Json.comma, IsIdle]

theorem isIdle_colon : ∀ c ∈ some ':', IsIdle c := by simp [IsIdle]

theorem scan_idle (h : ∀ c ∈ cs, IsIdle c) (rest : List Char) :
    scan path offset depth matched none (cs ++ rest) =
      scan path (offset + byteLength cs) depth matched none rest := by
  induction cs generalizing offset with
  | nil => rfl
  | cons c cs ih =>
    obtain ⟨hc, hcs⟩ := List.forall_mem_cons.mp h
    simp only [IsIdle, List.mem_cons, List.not_mem_nil, or_false, not_or] at hc
    simp [scan, byteLength, hc, ih hcs, Nat.add_assoc]

theorem scan_blanks (blanks : Blanks) (rest : List Char) :
    scan path offset depth matched none (blanks.1 ++ rest) =
      scan path (offset + byteLength blanks.1) depth matched none rest :=
  scan_idle (fun c hc => isIdle_of_isBlank (blanks.2 c hc)) rest

theorem isKey_blanks (blanks : Blanks) (rest : List Char) : isKey (blanks.1 ++ rest) = isKey rest := by
  have hblanks : ∀ c ∈ blanks.1, Text.isAsciiBlank c := fun c hc => isAsciiBlank_of_isBlank (blanks.2 c hc)
  rw [isKey, List.dropWhile_append_of_pos hblanks, isKey]

theorem isKey_colon (gap : Gap (some ':')) (rest : List Char) : isKey (gap.text ++ rest) = true := by
  rw [Gap.text, List.append_assoc, isKey_blanks]
  rfl

theorem isKey_items (items : Phrase (.items true)) (rest : List Char) : isKey (items.text ++ rest) = false := by
  cases items with
  | noItem blanks =>
    rw [Phrase.text, List.append_assoc, isKey_blanks]
    rfl
  | item lead value more =>
    rw [Phrase.text, List.append_assoc, Gap.text, List.append_assoc, isKey_blanks]
    rfl

theorem isKey_members (members : Phrase (.members true)) (rest : List Char) :
    isKey (members.text ++ rest) = false := by
  cases members with
  | noMember blanks =>
    rw [Phrase.text, List.append_assoc, isKey_blanks]
    rfl
  | member lead key colon value more =>
    rw [Phrase.text, List.append_assoc, Gap.text, List.append_assoc, isKey_blanks]
    rfl

-- ---------------------------------------------------------------------------
-- Strings
-- ---------------------------------------------------------------------------

theorem scan_body (h : Body cs) (start : Nat) (done rest : List Char) :
    scan path offset depth matched (some ⟨start, done, false⟩) (cs ++ '"' :: rest) =
      scan path (offset + byteLength cs) depth matched (some ⟨start, cs.reverse ++ done, false⟩) ('"' :: rest) := by
  induction h generalizing offset done with
  | nil => rfl
  | plain hquote hescape _ ih =>
    rw [List.cons_append, scan]
    simp [hquote, hescape, ih, byteLength, Nat.add_assoc]
  | pair c _ ih =>
    rw [List.cons_append, List.cons_append, scan]
    simp only [Bool.false_eq_true, if_false, if_true]
    rw [scan]
    simp [ih, byteLength, Nat.add_assoc]

theorem byteLength_quoted (cs : List Char) : byteLength ('"' :: (cs ++ ['"'])) = byteLength cs + 2 := by
  have hsize : ('"' : Char).utf8Size = 1 := rfl
  rw [byteLength, Text.byteLength_append, byteLength, byteLength, hsize]
  omega

theorem scan_open (cs : List Char) : scan path offset depth matched none ('"' :: cs) =
    scan path (offset + 1) depth matched (some ⟨offset, [], false⟩) cs := rfl

theorem scan_close (start : Nat) (done cs : List Char) :
    scan path offset depth matched (some ⟨start, done, false⟩) ('"' :: cs) =
      if isKey cs && depth = matched + 1 && path[matched]? = some done.reverse then
        if matched + 1 = path.length then some ⟨start, offset + 1 - start⟩
        else scan path (offset + 1) depth (matched + 1) none cs
      else scan path (offset + 1) depth matched none cs := rfl

/-- Whether a string is the key that the scan looks for is seen from its depth, its text and what follows. -/
theorem scan_string (quoted : Json.Quoted) (rest : List Char) :
    scan path offset depth matched none (quoted.text ++ rest) =
      if isKey rest && depth = matched + 1 && path[matched]? = some quoted.raw then
        if matched + 1 = path.length then some ⟨offset, byteLength quoted.text⟩
        else scan path (offset + byteLength quoted.text) depth (matched + 1) none rest
      else scan path (offset + byteLength quoted.text) depth matched none rest := by
  have hend : offset + 1 + byteLength quoted.raw + 1 = offset + byteLength quoted.text := by
    rw [Json.Quoted.text, byteLength_quoted]
    omega
  rw [Json.Quoted.text, List.cons_append, List.append_assoc, List.singleton_append, scan_open,
    scan_body quoted.body.1, scan_close, List.append_nil, List.reverse_reverse, ← Json.Quoted.text, hend,
    Nat.add_sub_cancel_left]

-- ---------------------------------------------------------------------------
-- Phrases
-- ---------------------------------------------------------------------------

/-- How many brackets a phrase closes that it has not opened. -/
def unopened : Kind → Nat
  | .value => 0
  | .items _ | .members _ => 1

theorem scan_opening {c : Char} (h : c = '[' ∨ c = '\x7b') (cs : List Char) :
    scan path offset depth matched none (c :: cs) = scan path (offset + 1) (depth + 1) matched none cs := by
  rcases h with rfl | rfl <;> rfl

theorem scan_closing {c : Char} (h : c = ']' ∨ c = '\x7d') (hdepth : matched + 1 < depth) (cs : List Char) :
    scan path offset depth matched none (c :: cs) = scan path (offset + 1) (depth - 1) matched none cs := by
  have hinner : ¬depth - 1 ≤ matched := by omega
  rcases h with rfl | rfl
  · simp +decide [scan, hinner]
    rfl
  · simp +decide [scan, hinner]
    rfl

/-- Deeper than the key that it looks for the scan goes over a phrase. -/
theorem scan_phrase (phrase : Phrase kind) (hdepth : matched + unopened kind < depth)
    (hrest : kind = .value → isKey rest = false) :
    scan path offset depth matched none (phrase.text ++ rest) =
      scan path (offset + byteLength phrase.text) (depth - unopened kind) matched none rest := by
  induction phrase generalizing offset depth rest with
  | word text value h => exact scan_idle (fun c hc => isIdle_of_isWord (h.isWord c hc)) rest
  | string quoted =>
    rw [Phrase.text, scan_string, hrest rfl]
    rfl
  | array items ih =>
    rw [Phrase.text, List.cons_append, scan_opening (.inl rfl), ih (Nat.succ_lt_succ hdepth) (by simp), byteLength,
      ← Nat.add_assoc]
    rfl
  | object members ih =>
    rw [Phrase.text, List.cons_append, scan_opening (.inr rfl), ih (Nat.succ_lt_succ hdepth) (by simp), byteLength,
      ← Nat.add_assoc]
    rfl
  | noItem blanks =>
    rw [Phrase.text, List.append_assoc, scan_blanks, List.singleton_append, scan_closing (.inl rfl) hdepth,
      Text.byteLength_append, ← Nat.add_assoc]
    rfl
  | noMember blanks =>
    rw [Phrase.text, List.append_assoc, scan_blanks, List.singleton_append, scan_closing (.inr rfl) hdepth,
      Text.byteLength_append, ← Nat.add_assoc]
    rfl
  | item lead value more ih ih' =>
    have hvalue : depth - unopened .value = depth := rfl
    rw [Phrase.text, List.append_assoc, List.append_assoc, scan_idle (isIdle_gap lead isIdle_comma),
      ih (Nat.lt_of_succ_lt hdepth) fun _ => isKey_items more rest, hvalue, ih' hdepth (by simp), Text.byteLength_append,
      Text.byteLength_append, Nat.add_assoc, Nat.add_assoc]
    rfl
  | member lead key colon value more ih ih' =>
    have hvalue : depth - unopened .value = depth := rfl
    -- a key of this object is too deep to be the one that is looked for
    have hkey : depth ≠ matched + 1 := Nat.ne_of_gt hdepth
    simp only [Phrase.text, List.append_assoc, Text.byteLength_append]
    rw [scan_idle (isIdle_gap lead isIdle_comma), scan_string, if_neg (by simp [hkey]),
      scan_idle (isIdle_gap colon isIdle_colon), ih (Nat.lt_of_succ_lt hdepth) fun _ => isKey_members more rest,
      hvalue, ih' hdepth (by simp)]
    simp only [Nat.add_assoc]
    rfl

end TsBuild.Config.Key
