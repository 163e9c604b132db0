import TsBuild.Json.Basic

/-!
# Members by key

A member that is set is the one found under its key (`lookup_insert`), and setting members keeps the
keys distinct. Setting the members of one list in another layers the first over the second: their values
(`lookup_layer`) and the order of their keys (`keys_layer`) say all about it (`eq_of_lookup`). Where all keys
are distinct it puts the first behind (`layer_eq_append`).
-/

namespace TsBuild.Json

variable {β : Type} {members upper lower : List (String × β)}

def Distinct (members : List (String × β)) : Prop := (members.map Prod.fst).Nodup

/-- All members of one list set in another. -/
def layer (upper lower : List (String × β)) : List (String × β) :=
  upper.foldl (fun members (key, value) => insert key value members) lower

theorem lookup_eq_none (h : key ∉ members.map Prod.fst) : members.lookup key = none := by
  induction members with
  | nil => rfl
  | cons member rest ih =>
    rw [List.map_cons, List.mem_cons, not_or] at h
    rw [List.lookup_cons, beq_eq_false_iff_ne.mpr h.1]
    exact ih h.2

theorem lookup_eq_some_iff (h : Distinct members) : members.lookup key = some value ↔ (key, value) ∈ members := by
  induction members with
  | nil => simp
  | cons member rest ih =>
    obtain ⟨hmember, hrest⟩ := List.nodup_cons.mp h
    rw [List.lookup_cons]
    by_cases hkey : key = member.1
    · subst hkey
      have hothers : (member.1, value) ∉ rest := fun hmem => hmember (List.mem_map.mpr ⟨_, hmem, rfl⟩)
      simp [hothers, Prod.ext_iff, eq_comm]
    · rw [beq_eq_false_iff_ne.mpr hkey, ih hrest]
      simp [hkey, Prod.ext_iff]

theorem eq_of_lookup {others : List (String × β)} (h : Distinct members)
    (hkeys : members.map Prod.fst = others.map Prod.fst)
    (hlookup : ∀ key, members.lookup key = others.lookup key) : members = others := by
  induction members generalizing others with
  | nil => exact (List.map_eq_nil_iff.mp hkeys.symm).symm
  | cons member rest ih =>
    obtain ⟨hmember, hrest⟩ := List.nodup_cons.mp h
    obtain ⟨key, value⟩ := member
    match others, hkeys with
    | (_, other) :: others, hkeys =>
      rw [List.map_cons, List.map_cons, List.cons.injEq] at hkeys
      obtain ⟨rfl, hkeys⟩ := hkeys
      have hvalue := hlookup key
      rw [List.lookup_cons_self, List.lookup_cons_self, Option.some_inj] at hvalue
      rw [hvalue, ih hrest hkeys fun sought => ?_]
      by_cases hsought : sought = key
      · rw [hsought, lookup_eq_none hmember, lookup_eq_none (hkeys ▸ hmember)]
      · have hbelow := hlookup sought
        rwa [List.lookup_cons, List.lookup_cons, beq_eq_false_iff_ne.mpr hsought] at hbelow

theorem lookup_perm (h : Distinct members) (hperm : members.Perm permuted) (key : String) :
    permuted.lookup key = members.lookup key := by
  have hpermuted : Distinct permuted := (hperm.map Prod.fst).nodup h
  refine Option.ext fun value => ?_
  rw [lookup_eq_some_iff h, lookup_eq_some_iff hpermuted, hperm.mem_iff]

theorem lookup_insert (key other : String) (value : β) (members : List (String × β)) :
    (insert key value members).lookup other = if other = key then some value else members.lookup other := by
  induction members with
  | nil =>
    rw [insert, List.lookup_cons]
    by_cases hother : other = key
    · rw [hother, beq_self_eq_true, if_pos rfl]
    · rw [beq_eq_false_iff_ne.mpr hother, if_neg hother]
  | cons member rest ih =>
    rw [insert]
    by_cases hkey : member.1 = key
    · rw [if_pos hkey, List.lookup_cons, List.lookup_cons, hkey]
      by_cases hother : other = key
      · rw [hother, beq_self_eq_true, if_pos rfl]
      · rw [beq_eq_false_iff_ne.mpr hother, if_neg hother]
    · rw [if_neg hkey, List.lookup_cons, List.lookup_cons, ih]
      by_cases hother : other = key
      · rw [if_pos hother, beq_eq_false_iff_ne.mpr (by rw [hother]; exact Ne.symm hkey), if_pos hother]
      · rw [if_neg hother, if_neg hother]

theorem keys_insert (key : String) (value : β) (members : List (String × β)) :
    (insert key value members).map Prod.fst =
      if key ∈ members.map Prod.fst then members.map Prod.fst else members.map Prod.fst ++ [key] := by
  induction members with
  | nil => rfl
  | cons member rest ih =>
    rw [insert]
    by_cases hkey : member.1 = key
    · simp [hkey]
    · simp only [hkey, ↓reduceIte, List.map_cons, ih, List.mem_cons, Ne.symm hkey, false_or]
      split <;> rfl

theorem Distinct.insert (h : Distinct members) (key : String) (value : β) :
    Distinct (insert key value members) := by
  rw [Distinct, keys_insert]
  split
  · exact h
  · rename_i hkey
    refine List.nodup_append.mpr ⟨h, by simp, fun a ha b hb heq => hkey ?_⟩
    rwa [← List.mem_singleton.mp hb, ← heq]

theorem Distinct.layer (h : Distinct lower) (upper : List (String × β)) : Distinct (layer upper lower) := by
  induction upper generalizing lower with
  | nil => exact h
  | cons member rest ih => exact ih (h.insert member.1 member.2)

/-- Keys that are there keep their places, and the others go behind them in their order. -/
theorem keys_layer (h : Distinct upper) (lower : List (String × β)) :
    (layer upper lower).map Prod.fst =
      lower.map Prod.fst ++ (upper.map Prod.fst).filter (· ∉ lower.map Prod.fst) := by
  induction upper generalizing lower with
  | nil => simp [layer]
  | cons member rest ih =>
    obtain ⟨hmember, hrest⟩ := List.nodup_cons.mp h
    change (layer rest (Json.insert member.1 member.2 lower)).map Prod.fst = _
    rw [ih hrest, keys_insert, List.map_cons, List.filter_cons]
    by_cases hkey : member.1 ∈ lower.map Prod.fst
    · rw [if_pos hkey, if_neg (by simpa using hkey)]
    · rw [if_neg hkey, if_pos (by simpa using hkey), List.append_assoc, List.singleton_append]
      congr 2
      refine List.filter_congr fun key hkeyRest => ?_
      have hne : key ≠ member.1 := fun heq => hmember (heq ▸ hkeyRest)
      simp [hne]

theorem lookup_layer (h : Distinct upper) (lower : List (String × β)) (key : String) :
    (layer upper lower).lookup key = (upper.lookup key <|> lower.lookup key) := by
  induction upper generalizing lower with
  | nil => rfl
  | cons member rest ih =>
    obtain ⟨hmember, hrest⟩ := List.nodup_cons.mp h
    change (Json.layer rest (Json.insert member.1 member.2 lower)).lookup key = _
    rw [ih hrest, lookup_insert, List.lookup_cons]
    by_cases hkey : key = member.1
    · rw [hkey, lookup_eq_none hmember, beq_self_eq_true, if_pos rfl]
      rfl
    · rw [beq_eq_false_iff_ne.mpr hkey, if_neg hkey]

theorem insert_of_notMem (h : key ∉ members.map Prod.fst) (value : β) :
    insert key value members = members ++ [(key, value)] := by
  induction members with
  | nil => rfl
  | cons member rest ih =>
    simp only [List.map_cons, List.mem_cons, not_or] at h
    simp [insert, Ne.symm h.1, ih h.2]

theorem layer_eq_append (h : Distinct (lower ++ upper)) : layer upper lower = lower ++ upper := by
  induction upper generalizing lower with
  | nil => exact (List.append_nil lower).symm
  | cons member rest ih =>
    have hkey : member.1 ∉ lower.map Prod.fst := by
      intro hmem
      simp only [Distinct, List.map_append, List.map_cons] at h
      exact (List.nodup_append.mp h).2.2 _ hmem _ List.mem_cons_self rfl
    change layer rest (insert member.1 member.2 lower) = _
    rw [insert_of_notMem hkey, ih] <;> simp [h]

theorem mem_keys_layer (h : key ∈ (layer upper lower).map Prod.fst) :
    key ∈ upper.map Prod.fst ∨ key ∈ lower.map Prod.fst := by
  induction upper generalizing lower with
  | nil => exact .inr h
  | cons member rest ih =>
    have hstep : key ∈ (layer rest (insert member.1 member.2 lower)).map Prod.fst := h
    rcases ih hstep with hrest | hlower
    · exact .inl (List.mem_cons_of_mem _ hrest)
    · rw [keys_insert] at hlower
      split at hlower
      · exact .inr hlower
      · rcases List.mem_append.mp hlower with hlower | hkey
        · exact .inr hlower
        · exact .inl (List.mem_singleton.mp hkey ▸ List.mem_cons_self)

end TsBuild.Json
