import TsBuild.Diagnostic.Basic
import TsBuild.Proofs.Text.Pieces

/-!
# Flattened messages

A flattened chain of messages has a line for each of them, in pre-order (`splitOn_flatten`). If the messages are
single lines that begin with no space, the depths are read off the lines (`row_inj`), and depths in pre-order
leave one shape for the chain (`outline_append_inj`). So no two such chains are flattened to one text
(`flatten_keepsAll`).
-/

namespace TsBuild.Diagnostic

mutual
def Chain.outline (depth : Nat) : Chain → List (Nat × String)
  | .link text next => (depth, text) :: outlineAll (depth + 1) next
def Chain.outlineAll (depth : Nat) : List Chain → List (Nat × String)
  | [] => []
  | first :: rest => first.outline depth ++ outlineAll depth rest
end

def row (entry : Nat × String) : List Char := List.replicate (2 * entry.1) ' ' ++ entry.2.toList

/-- No line feed, and no space that could be taken for indentation. -/
def IsRow (text : String) : Prop := '\n' ∉ text.toList ∧ text.toList.head? ≠ some ' '

instance (text : String) : Decidable (IsRow text) := inferInstanceAs (Decidable (_ ∧ _))

def Chain.IsRows (chain : Chain) : Prop := ∀ entry ∈ chain.outline 0, IsRow entry.2

instance (chain : Chain) : Decidable chain.IsRows := inferInstanceAs (Decidable (∀ entry ∈ _, _))

variable {chain other : Chain} {entry : Nat × String} {depth : Nat} {rest rest' : List (Nat × String)}

-- ---------------------------------------------------------------------------
-- Lines
-- ---------------------------------------------------------------------------

mutual
theorem toList_flatten (depth : Nat) : (chain : Chain) →
    (chain.flatten "\n" (depth + 1)).toList = (chain.outline (depth + 1)).flatMap fun entry => '\n' :: row entry
  | .link text next => by simp [Chain.flatten, Chain.outline, row, toList_flattenAll]
theorem toList_flattenAll (depth : Nat) : (chains : List Chain) →
    (Chain.flattenAll "\n" (depth + 1) chains).toList =
      (Chain.outlineAll (depth + 1) chains).flatMap fun entry => '\n' :: row entry
  | [] => rfl
  | first :: others => by
    simp [Chain.flattenAll, Chain.outlineAll, toList_flatten depth first, toList_flattenAll depth others]
end

theorem newline_notMem_row (h : IsRow entry.2) : '\n' ∉ row entry := by
  simp [row, h.1]

theorem splitOn_rows (h : ∀ entry ∈ rest, IsRow entry.2) {cs : List Char} (hcs : '\n' ∉ cs) :
    Text.splitOn '\n' (cs ++ rest.flatMap fun entry => '\n' :: row entry) = cs :: rest.map row := by
  induction rest generalizing cs with
  | nil => simp [Text.splitOn_of_notMem hcs]
  | cons entry rest ih =>
    obtain ⟨hentry, hrest⟩ := List.forall_mem_cons.mp h
    simp only [List.flatMap_cons, List.cons_append, List.map_cons]
    rw [Text.splitOn_append, Text.splitOn_of_notMem hcs, ih hrest (newline_notMem_row hentry)]
    rfl

theorem splitOn_flatten (h : chain.IsRows) :
    Text.splitOn '\n' (Message.flatten "\n" (.chain chain)).toList = (chain.outline 0).map row := by
  obtain ⟨text, next⟩ := chain
  simp only [Chain.IsRows, Chain.outline, List.forall_mem_cons] at h
  have hflatten : (Message.flatten "\n" (.chain (.link text next))).toList =
      row (0, text) ++ (Chain.outlineAll 1 next).flatMap fun entry => '\n' :: row entry := by
    simp [Message.flatten, Chain.flatten, row, toList_flattenAll]
  rw [hflatten, splitOn_rows h.2 (newline_notMem_row h.1)]
  rfl

-- ---------------------------------------------------------------------------
-- Depths
-- ---------------------------------------------------------------------------

theorem takeWhile_row (h : IsRow entry.2) : (row entry).takeWhile (· = ' ') = List.replicate (2 * entry.1) ' ' := by
  rw [row, List.takeWhile_append_of_pos (by simp)]
  cases hcs : entry.2.toList with
  | nil => simp
  | cons c cs =>
    have hspace : c ≠ ' ' := by simpa [hcs] using h.2
    simp [hspace]

theorem row_inj {entry other : Nat × String} (h : IsRow entry.2) (hother : IsRow other.2)
    (heq : row entry = row other) : entry = other := by
  have hindent := congrArg (List.takeWhile (· = ' ')) heq
  rw [takeWhile_row h, takeWhile_row hother, List.replicate_inj] at hindent
  have hdepth : entry.1 = other.1 := by omega
  rw [row, row, hdepth] at heq
  exact Prod.ext hdepth (String.toList_inj.mp (List.append_cancel_left heq))

theorem map_row_inj {others : List (Nat × String)} (h : ∀ entry ∈ rest, IsRow entry.2)
    (hothers : ∀ entry ∈ others, IsRow entry.2) (heq : rest.map row = others.map row) : rest = others := by
  induction rest generalizing others with
  | nil => simpa using heq.symm
  | cons entry rest ih =>
    cases others with
    | nil => simp at heq
    | cons other others =>
      simp only [List.map_cons, List.cons.injEq] at heq
      simp only [List.forall_mem_cons] at h hothers
      rw [row_inj h.1 hothers.1 heq.1, ih h.2 hothers.2 heq.2]

-- ---------------------------------------------------------------------------
-- Shapes
-- ---------------------------------------------------------------------------

/-- What comes next is no deeper. -/
def Ends (depth : Nat) (rest : List (Nat × String)) : Prop := ∀ entry ∈ rest.head?, entry.1 ≤ depth

theorem Ends.outlineAll (h : Ends depth rest) (chains : List Chain) :
    Ends depth (Chain.outlineAll depth chains ++ rest) := by
  cases chains with
  | nil => exact h
  | cons first others =>
    obtain ⟨text, next⟩ := first
    simp [Ends, Chain.outlineAll, Chain.outline]

theorem Ends.ne_cons (h : Ends depth rest) (chain : Chain) (more : List (Nat × String)) :
    rest ≠ chain.outline (depth + 1) ++ more := by
  rintro rfl
  obtain ⟨text, next⟩ := chain
  have hle : depth + 1 ≤ depth := h (depth + 1, text) (by simp [Chain.outline])
  exact Nat.not_succ_le_self depth hle

mutual
/-- An outline tells where it ends, and of which chain it is. -/
theorem outline_append_inj : (chain other : Chain) → {depth : Nat} → {rest rest' : List (Nat × String)} →
    Ends depth rest → Ends depth rest' →
    chain.outline depth ++ rest = other.outline depth ++ rest' → chain = other ∧ rest = rest'
  | .link text next, .link text' next', _, _, _, hrest, hrest', heq => by
    simp only [Chain.outline, List.cons_append, List.cons.injEq, Prod.mk.injEq, true_and] at heq
    obtain ⟨rfl, heq⟩ := heq
    obtain ⟨rfl, rfl⟩ := outlineAll_append_inj next next' hrest hrest' heq
    exact ⟨rfl, rfl⟩
theorem outlineAll_append_inj : (chains others : List Chain) → {depth : Nat} →
    {rest rest' : List (Nat × String)} → Ends depth rest → Ends depth rest' →
    Chain.outlineAll (depth + 1) chains ++ rest = Chain.outlineAll (depth + 1) others ++ rest' →
      chains = others ∧ rest = rest'
  | [], [], _, _, _, _, _, heq => ⟨rfl, heq⟩
  | [], other :: others, _, _, _, hrest, _, heq => by
    simp only [Chain.outlineAll, List.nil_append, List.append_assoc] at heq
    exact absurd heq (hrest.ne_cons other _)
  | first :: chains, [], _, _, _, _, hrest', heq => by
    simp only [Chain.outlineAll, List.nil_append, List.append_assoc] at heq
    exact absurd heq.symm (hrest'.ne_cons first _)
  | first :: chains, other :: others, depth, _, _, hrest, hrest', heq => by
    simp only [Chain.outlineAll, List.append_assoc] at heq
    have hdeeper : ∀ {rest : List (Nat × String)}, Ends depth rest → Ends (depth + 1) rest :=
      fun h entry hentry => Nat.le_succ_of_le (h entry hentry)
    obtain ⟨rfl, htail⟩ := outline_append_inj first other ((hdeeper hrest).outlineAll chains)
      ((hdeeper hrest').outlineAll others) heq
    obtain ⟨rfl, rfl⟩ := outlineAll_append_inj chains others hrest hrest' htail
    exact ⟨rfl, rfl⟩
end

theorem outline_inj (h : chain.outline depth = other.outline depth) : chain = other := by
  have hends : Ends depth [] := by simp [Ends]
  exact (outline_append_inj chain other hends hends (by simp [h])).1

-- ---------------------------------------------------------------------------
-- Chains
-- ---------------------------------------------------------------------------

/-- A chain whose messages are rows is flattened to one line for each message, in pre-order and with two spaces
for each level above it, and no other such chain is flattened to the same text. -/
theorem flatten_keepsAll (h : chain.IsRows) :
    Text.splitOn '\n' (Message.flatten "\n" (.chain chain)).toList = (chain.outline 0).map row ∧
      ∀ other : Chain, other.IsRows →
        Message.flatten "\n" (.chain other) = Message.flatten "\n" (.chain chain) → other = chain := by
  refine ⟨splitOn_flatten h, ?_⟩
  intro other hother heq
  have hlines := splitOn_flatten hother
  rw [heq, splitOn_flatten h] at hlines
  exact outline_inj (map_row_inj hother h hlines.symm)

def nested : Chain := .link "top" [.link "" [.link "leaf" []], .link "side" []]

def nestedDeeper : Chain := .link "top" [.link "" [.link "leaf" [], .link "side" []]]

theorem flatten_keepsAll_nested : nested.IsRows ∧ nestedDeeper.IsRows ∧
    Text.splitOn '\n' (Message.flatten "\n" (.chain nested)).toList =
      ["top", "  ", "    leaf", "  side"].map String.toList ∧
    Message.flatten "\n" (.chain nestedDeeper) ≠ Message.flatten "\n" (.chain nested) := by
  have hrows : nested.IsRows := by decide
  have hdeeper : nestedDeeper.IsRows := by decide
  obtain ⟨hlines, hinj⟩ := flatten_keepsAll hrows
  refine ⟨hrows, hdeeper, hlines.trans (by decide), fun heq => ?_⟩
  cases hinj nestedDeeper hdeeper heq

end TsBuild.Diagnostic
