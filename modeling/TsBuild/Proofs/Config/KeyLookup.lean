import TsBuild.Proofs.Config.KeyScan

/-!
# Keys by path

What the scan for a key finds in a document is told from the members of its objects (`find_eq_lookup`). It goes
through the members of an object up to the key, and from there to the first brackets: those of the value, or, if the
value has none, those of a member behind it. So a key of the object that a path leads to is found (`find_entry`).
-/

namespace TsBuild.Config.Key

open Json (Phrase Document)
open Text (byteLength)

variable {path : List (List Char)} {offset depth matched : Nat} {rest : List Char} {text name key : String}
  {names : List String} {members : List Phrase.Member} {member : Phrase.Member} {doc : Document} {span : Span}

-- ---------------------------------------------------------------------------
-- Members by path
-- ---------------------------------------------------------------------------

def isBracketed : Phrase .value → Bool
  | .array _ | .object _ => true
  | .word .. | .string _ => false

def holder? (members : List Phrase.Member) : Option Phrase.Member :=
  members.find? fun member => isBracketed member.value

def spanOf (member : Phrase.Member) : Span := ⟨member.start, byteLength member.key.text⟩

/-- The key that a path leads to. From a key it goes on in the first brackets behind it. -/
def lookup : List String → List Phrase.Member → Option Span
  | [], _ => none
  | name :: names, members =>
    match members.dropWhile fun member => member.key.value ≠ name with
    | [] => none
    | member :: behind =>
      if names = [] then some (spanOf member)
      else (holder? (member :: behind)).bind fun holder => lookup names (holder.value.entries holder.place)

theorem lookup_nil (names : List String) : lookup names [] = none := by
  cases names <;> rfl

theorem lookup_cons_self (member : Phrase.Member) (names : List String) (members : List Phrase.Member) :
    lookup (member.key.value :: names) (member :: members) =
      if names = [] then some (spanOf member)
      else (holder? (member :: members)).bind fun holder => lookup names (holder.value.entries holder.place) := by
  simp [lookup]

theorem lookup_append {before : List Phrase.Member} (h : ∀ member ∈ before, member.key.value ≠ name)
    (names : List String) (members : List Phrase.Member) :
    lookup (name :: names) (before ++ members) = lookup (name :: names) members := by
  have hbefore : ∀ member ∈ before, decide (member.key.value ≠ name) = true := by simpa using h
  rw [lookup, List.dropWhile_append_of_pos hbefore, lookup]

theorem lookup_of_absent (h : ∀ member ∈ members, member.key.value ≠ name) (names : List String) :
    lookup (name :: names) members = none := by
  simpa [lookup_nil] using lookup_append h names []

theorem exists_mem_of_lookup (h : lookup (name :: names) members = some span) :
    ∃ member ∈ members, member.key.value = name := by
  by_cases hmember : ∃ member ∈ members, member.key.value = name
  · exact hmember
  · rw [lookup_of_absent fun member hmem hname => hmember ⟨member, hmem, hname⟩] at h
    cases h

-- ---------------------------------------------------------------------------
-- The scan
-- ---------------------------------------------------------------------------

theorem scan_idle_only (h : ∀ c ∈ rest, IsIdle c) : scan path offset depth matched none rest = none := by
  simpa [scan] using scan_idle h []

/-- A bracket that closes the object of the key ends the scan; so does the last bracket of a document. -/
theorem scan_last {c : Char} (h : c = ']' ∨ c = '\x7d') (hdepth : depth ≤ matched + 1)
    (hrest : matched = 0 → ∀ c ∈ rest, IsIdle c) : scan path offset depth matched none (c :: rest) = none := by
  have hscan : scan path offset depth matched none (c :: rest) =
      if matched > 0 && depth - 1 ≤ matched then none
      else scan path (offset + c.utf8Size) (depth - 1) matched none rest := by
    rcases h with rfl | rfl <;> rfl
  rw [hscan]
  split
  · rfl
  · rename_i hopen
    have hnone : matched = 0 := by
      simp only [Bool.and_eq_true, decide_eq_true_eq, not_and] at hopen
      omega
    exact scan_idle_only (hrest hnone)

theorem scan_items (items : Phrase (.items behind)) (hrest : matched = 0 → ∀ c ∈ rest, IsIdle c) (offset : Nat) :
    scan path offset (matched + 1) matched none (items.text ++ rest) = none := by
  match items with
  | .noItem blanks =>
    rw [Phrase.text, List.append_assoc, scan_blanks]
    exact scan_last (.inl rfl) (Nat.le_refl _) hrest
  | .item lead value more =>
    have hinner : matched + unopened .value < matched + 1 := Nat.lt_succ_self _
    have hvalue : matched + 1 - unopened .value = matched + 1 := rfl
    simp only [Phrase.text, List.append_assoc]
    rw [scan_idle (isIdle_gap lead isIdle_comma), scan_phrase value hinner fun _ => isKey_items more rest, hvalue]
    exact scan_items more hrest _

def Seeks (path : List (List Char)) (matched : Nat) (names : List String) : Prop :=
  ∀ (members : Phrase (.members false)) (offset : Nat) (rest : List Char), members.IsPlain →
    scan path offset (matched + 1) matched none (members.text ++ rest) = lookup names (members.members offset)

/-- Behind a key the scan goes on to the first brackets, of its value or of a member behind it. -/
theorem scan_behind (hmatched : 0 < matched) (hseeks : Seeks path matched names) (value : Phrase .value)
    (more : Phrase (.members true)) (hvalue : value.IsPlain) (hmore : more.IsPlain) (start place : Nat)
    (key : Json.Quoted) (rest : List Char) :
    scan path place matched matched none (value.text ++ (more.text ++ rest)) =
      (holder? (⟨start, key, place, value⟩ :: more.members (place + byteLength value.text))).bind
        fun holder => lookup names (holder.value.entries holder.place) := by
  have hnone : matched = 0 → ∀ c ∈ rest, IsIdle c := fun h => absurd h (Nat.ne_of_gt hmatched)
  have hbehind : scan path (place + byteLength value.text) matched matched none (more.text ++ rest) =
      (holder? (more.members (place + byteLength value.text))).bind
        fun holder => lookup names (holder.value.entries holder.place) := by
    match more with
    | .noMember blanks =>
      rw [Phrase.text, List.append_assoc, scan_blanks, List.singleton_append,
        scan_last (.inr rfl) (Nat.le_succ _) hnone]
      simp [Phrase.members, holder?]
    | .member lead key colon next more =>
      -- a key beside the one that was found is not as deep as the one that is looked for
      simp only [Phrase.text, List.append_assoc]
      rw [scan_idle (isIdle_gap lead isIdle_comma), scan_string, if_neg (by simp),
        scan_idle (isIdle_gap colon isIdle_colon), Phrase.members]
      exact scan_behind hmatched hseeks next more hmore.2.1 hmore.2.2 _ _ key rest
  -- a word or a string leaves the depth as it is, so the scan gets to the members behind
  cases value with
  | word text value h =>
    rw [Phrase.text, scan_idle fun c hc => isIdle_of_isWord (h.isWord c hc)]
    exact hbehind
  | string quoted =>
    rw [Phrase.text, scan_string, isKey_members more rest]
    exact hbehind
  | array items =>
    rw [Phrase.text, List.cons_append, scan_opening (.inl rfl),
      scan_items items fun h => absurd h (Nat.ne_of_gt hmatched)]
    simp [holder?, isBracketed, Phrase.entries, lookup_nil]
  | object members =>
    rw [Phrase.text, List.cons_append, scan_opening (.inr rfl), hseeks members _ _ hvalue.2]
    simp [holder?, isBracketed, Phrase.entries]

theorem scan_members (hpath : path.drop matched = (name :: names).map String.toList)
    (hseeks : names ≠ [] → Seeks path (matched + 1) names) (members : Phrase (.members behind))
    (hplain : members.IsPlain) (hrest : matched = 0 → ∀ c ∈ rest, IsIdle c) (offset : Nat) :
    scan path offset (matched + 1) matched none (members.text ++ rest) =
      lookup (name :: names) (members.members offset) := by
  match members with
  | .noMember blanks =>
    rw [Phrase.text, List.append_assoc, scan_blanks, Phrase.members, lookup_nil]
    exact scan_last (.inr rfl) (Nat.le_refl _) hrest
  | .member lead key colon value more =>
    obtain ⟨hslash, hvalue, hmore⟩ := hplain
    have hsought : path[matched]? = some name.toList := by
      rw [← List.head?_drop, hpath]
      rfl
    have hlast : matched + 1 = path.length ↔ names = [] := by
      have hlength := congrArg List.length hpath
      rw [List.length_drop, List.length_map, List.length_cons] at hlength
      rw [← List.length_eq_zero_iff]
      omega
    simp only [Phrase.text, List.append_assoc, Phrase.members]
    rw [scan_idle (isIdle_gap lead isIdle_comma), scan_string, isKey_colon, hsought, ← key.body.2 hslash]
    by_cases hkey : key.value = name
    · subst hkey
      rw [lookup_cons_self ⟨_, key, _, value⟩]
      simp only [decide_true, Bool.and_self, ↓reduceIte, hlast]
      by_cases hnames : names = []
      · simp [hnames, spanOf]
      · rw [if_neg hnames, if_neg hnames, scan_idle (isIdle_gap colon isIdle_colon)]
        exact scan_behind (Nat.succ_pos _) (hseeks hnames) value more hvalue hmore _ _ key rest
    · -- the value of another key is too deep to be searched
      have hne : ¬some name.toList = some key.value.toList := by
        simpa [String.toList_inj] using Ne.symm hkey
      have hinner : matched + unopened .value < matched + 1 := Nat.lt_succ_self _
      have hkind : matched + 1 - unopened .value = matched + 1 := rfl
      rw [if_neg (by simp [hne]), scan_idle (isIdle_gap colon isIdle_colon),
        scan_phrase value hinner fun _ => isKey_members more rest, hkind, scan_members hpath hseeks more hmore hrest]
      exact (lookup_append (List.forall_mem_singleton.mpr hkey) names _).symm

theorem seeks (hmatched : 0 < matched) (hpath : path.drop matched = names.map String.toList) (hnames : names ≠ []) :
    Seeks path matched names := by
  induction names generalizing matched with
  | nil => exact absurd rfl hnames
  | cons name names ih =>
    intro members offset rest hplain
    have hdrop : path.drop (matched + 1) = names.map String.toList := by
      rw [← List.drop_drop, hpath]
      rfl
    exact scan_members hpath (ih (Nat.succ_pos _) hdrop) members hplain (fun h => absurd h (Nat.ne_of_gt hmatched)) _

/-- The scan finds in a document what the path leads to. -/
theorem find_eq_lookup (htext : doc.text = text.toList) (hplain : doc.value.IsPlain) (name : String)
    (names : List String) : find? text (name :: names) = lookup (name :: names) doc.entries := by
  have htrail : ∀ c ∈ doc.trail.1, IsIdle c := fun c hc => isIdle_of_isBlank (doc.trail.2 c hc)
  rw [find?, ← htext, Document.text, scan_blanks, Document.entries, Nat.zero_add]
  cases hvalue : doc.value with
  | word text value h =>
    rw [Phrase.text, scan_idle fun c hc => isIdle_of_isWord (h.isWord c hc), scan_idle_only htrail]
    rfl
  | string quoted =>
    rw [Phrase.text, scan_string, if_neg (by simp), scan_idle_only htrail]
    rfl
  | array items =>
    rw [Phrase.text, List.cons_append, scan_opening (.inl rfl), scan_items items fun _ => htrail]
    rfl
  | object members =>
    rw [hvalue] at hplain
    rw [Phrase.text, List.cons_append, scan_opening (.inr rfl)]
    exact scan_members rfl (seeks Nat.one_pos rfl) members hplain.2 (fun _ => htrail) _

-- ---------------------------------------------------------------------------
-- Members with distinct keys
-- ---------------------------------------------------------------------------

theorem nodup_keys {value : Phrase .value} (hplain : value.IsPlain) (offset : Nat) :
    ((value.entries offset).map fun member => member.key.value).Nodup := by
  cases value with
  | object members =>
    have hnodup := hplain.1
    rw [Json.Distinct, ← Phrase.map_members members (offset + 1), List.map_map] at hnodup
    exact hnodup
  | word | string | array => exact List.nodup_nil

theorem lookup_split {before behind : List Phrase.Member}
    (hnodup : ((before ++ member :: behind).map fun member => member.key.value).Nodup) (names : List String) :
    lookup (member.key.value :: names) (before ++ member :: behind) =
      if names = [] then some (spanOf member)
      else (holder? (member :: behind)).bind fun holder => lookup names (holder.value.entries holder.place) := by
  rw [List.map_append, List.map_cons] at hnodup
  have hbefore : ∀ other ∈ before, other.key.value ≠ member.key.value := by
    intro other hother
    exact (List.nodup_append.mp hnodup).2.2 _ (List.mem_map_of_mem hother) _ List.mem_cons_self
  rw [lookup_append hbefore, lookup_cons_self]

section
variable (hnodup : (members.map fun member => member.key.value).Nodup)
include hnodup

theorem lookup_last (hmem : member ∈ members) : lookup [member.key.value] members = some (spanOf member) := by
  obtain ⟨before, behind, rfl⟩ := List.append_of_mem hmem
  rw [lookup_split hnodup, if_pos rfl]

theorem lookup_bracketed (hmem : member ∈ members) (hvalue : isBracketed member.value) (key : String) :
    lookup [member.key.value, key] members = lookup [key] (member.value.entries member.place) := by
  obtain ⟨before, behind, rfl⟩ := List.append_of_mem hmem
  have hholder : holder? (member :: behind) = some member := List.find?_cons_of_pos hvalue
  rw [lookup_split hnodup, if_neg (List.cons_ne_nil _ _), hholder, Option.bind_some]

theorem lookup_one_iff :
    lookup [key] members = some span ↔ ∃ member ∈ members, member.key.value = key ∧ span = spanOf member := by
  constructor
  · intro hlookup
    obtain ⟨member, hmem, rfl⟩ := exists_mem_of_lookup hlookup
    rw [lookup_last hnodup hmem] at hlookup
    exact ⟨member, hmem, rfl, (Option.some.inj hlookup).symm⟩
  · rintro ⟨member, hmem, rfl, rfl⟩
    exact lookup_last hnodup hmem

/-- The second of two names is looked for in the first brackets from the member of the first one on. -/
theorem lookup_two_iff :
    lookup [name, key] members = some span ↔
      ∃ before outer behind holder, members = before ++ outer :: behind ∧ outer.key.value = name ∧
        holder? (outer :: behind) = some holder ∧ lookup [key] (holder.value.entries holder.place) = some span := by
  constructor
  · intro hlookup
    obtain ⟨outer, hmem, rfl⟩ := exists_mem_of_lookup hlookup
    obtain ⟨before, behind, rfl⟩ := List.append_of_mem hmem
    rw [lookup_split hnodup, if_neg (List.cons_ne_nil _ _)] at hlookup
    obtain ⟨holder, hholder, hspan⟩ := Option.bind_eq_some_iff.mp hlookup
    exact ⟨before, outer, behind, holder, rfl, rfl, hholder, hspan⟩
  · rintro ⟨before, outer, behind, holder, rfl, rfl, hholder, hspan⟩
    rw [lookup_split hnodup, if_neg (List.cons_ne_nil _ _), hholder, Option.bind_some, hspan]

end

theorem isBracketed_of_mem_entries {value : Phrase .value} {place : Nat} (hmem : member ∈ value.entries place) :
    isBracketed value = true := by
  cases value with
  | object members => rfl
  | word | string | array => cases hmem

theorem find_entry (htext : doc.text = text.toList) (hplain : doc.value.IsPlain) {outer : Phrase.Member}
    (houter : outer ∈ doc.entries) :
    find? text [outer.key.value] = some ⟨outer.start, byteLength outer.key.text⟩ ∧
      ∀ entry ∈ outer.value.entries outer.place,
        find? text [outer.key.value, entry.key.value] = some ⟨entry.start, byteLength entry.key.text⟩ := by
  have hnodup : (doc.entries.map fun member => member.key.value).Nodup := nodup_keys hplain _
  constructor
  · rw [find_eq_lookup htext hplain]
    exact lookup_last hnodup houter
  · intro entry hentry
    have hinner := nodup_keys (Phrase.isPlain_of_mem_entries houter hplain) outer.place
    rw [find_eq_lookup htext hplain, lookup_bracketed hnodup houter (isBracketed_of_mem_entries hentry)]
    exact lookup_last hinner hentry

end TsBuild.Config.Key
