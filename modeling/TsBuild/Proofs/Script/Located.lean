import TsBuild.Script.Node

/-!
# Where the nodes of a tree are

A node of a tree is reached by the places of children on the way to it. `located` lists the nodes in the order
of `subnodes` with these ways (`map_located`): it has every node (`mem_located`), and no way twice
(`nodup_located`). So whatever is taken from `subnodes` is taken from every node once.
-/

namespace TsBuild.Script.Node

def at? : Node → List Nat → Option Node
  | node, [] => some node
  | mk _ _ children, i :: path => children[i]?.bind fun child => child.at? path

mutual
/-- The nodes of a tree, each with the way to it. -/
def located : Node → List (List Nat × Node)
  | mk kind span children => ([], mk kind span children) :: locatedAll 0 children
def locatedAll (i : Nat) : List Node → List (List Nat × Node)
  | [] => []
  | node :: rest => node.located.map (fun entry => (i :: entry.1, entry.2)) ++ locatedAll (i + 1) rest
end

mutual
theorem map_located : (node : Node) → node.located.map Prod.snd = node.subnodes
  | mk kind span children => by rw [located, subnodes, List.map_cons, map_locatedAll]
theorem map_locatedAll (i : Nat) : (nodes : List Node) → (locatedAll i nodes).map Prod.snd = subnodesAll nodes
  | [] => rfl
  | node :: rest => by
    rw [locatedAll, subnodesAll, List.map_append, List.map_map, map_locatedAll (i + 1) rest, ← map_located node]
    rfl
end

mutual
theorem mem_located : (tree : Node) → (path : List Nat) → (node : Node) →
    ((path, node) ∈ tree.located ↔ tree.at? path = some node)
  | mk kind span children, [], node => by
    have hbelow : ([], node) ∉ locatedAll 0 children := fun hmem => by
      obtain ⟨j, rest, heq, -⟩ := (mem_locatedAll 0 children [] node).mp hmem
      cases heq
    simp [located, at?, hbelow, eq_comm]
  | mk kind span children, i :: path, node => by
    rw [located, List.mem_cons, mem_locatedAll, at?, Option.bind_eq_some_iff]
    constructor
    · rintro (heq | ⟨j, rest, heq, hchild⟩)
      · cases heq
      · obtain ⟨rfl, rfl⟩ : i = j ∧ path = rest := by simpa using heq
        exact hchild
    · exact fun hchild => .inr ⟨i, path, by rw [Nat.zero_add], hchild⟩
theorem mem_locatedAll (i : Nat) : (nodes : List Node) → (path : List Nat) → (node : Node) →
    ((path, node) ∈ locatedAll i nodes ↔
      ∃ j rest, path = (i + j) :: rest ∧ ∃ child, nodes[j]? = some child ∧ child.at? rest = some node)
  | [], path, node => by simp [locatedAll]
  | first :: others, path, node => by
    rw [locatedAll, List.mem_append, mem_locatedAll (i + 1) others]
    constructor
    · rintro (hfirst | ⟨j, rest, rfl, child, hchild, hat⟩)
      · obtain ⟨⟨rest, below⟩, hmem, heq⟩ := List.mem_map.mp hfirst
        cases heq
        exact ⟨0, rest, rfl, first, rfl, (mem_located first rest below).mp hmem⟩
      · exact ⟨j + 1, rest, by rw [Nat.add_right_comm, Nat.add_assoc], child, hchild, hat⟩
    · rintro ⟨j, rest, rfl, child, hchild, hat⟩
      cases j with
      | zero =>
        cases hchild
        exact .inl (List.mem_map.mpr ⟨(rest, node), (mem_located first rest node).mpr hat, rfl⟩)
      | succ j => exact .inr ⟨j, rest, by rw [Nat.add_right_comm, Nat.add_assoc], child, hchild, hat⟩
end

mutual
theorem nodup_located : (tree : Node) → (tree.located.map Prod.fst).Nodup
  | mk kind span children => by
    rw [located, List.map_cons, List.nodup_cons]
    refine ⟨fun hmem => ?_, nodup_locatedAll 0 children⟩
    obtain ⟨⟨path, node⟩, hmem, rfl⟩ := List.mem_map.mp hmem
    obtain ⟨j, rest, heq, -⟩ := (mem_locatedAll 0 children _ node).mp hmem
    cases heq
theorem nodup_locatedAll (i : Nat) : (nodes : List Node) → ((locatedAll i nodes).map Prod.fst).Nodup
  | [] => List.nodup_nil
  | first :: others => by
    rw [locatedAll, List.map_append, List.map_map, List.nodup_append]
    refine ⟨?_, nodup_locatedAll (i + 1) others, ?_⟩
    · have hpaths : Prod.fst ∘ (fun entry : List Nat × Node => (i :: entry.1, entry.2)) = (i :: ·) ∘ Prod.fst := rfl
      rw [hpaths, ← List.map_map]
      exact List.Pairwise.map (i :: ·) (fun _ _ hne heq => hne (List.tail_eq_of_cons_eq heq)) (nodup_located first)
    · -- the ways into the first child begin with `i`, those into the others with a later place
      intro path hfirst other hother
      obtain ⟨_, -, rfl⟩ := List.mem_map.mp hfirst
      obtain ⟨⟨_, node⟩, hmem, rfl⟩ := List.mem_map.mp hother
      obtain ⟨j, rest, rfl, -⟩ := (mem_locatedAll (i + 1) others _ node).mp hmem
      intro heq
      have hplace := List.head_eq_of_cons_eq heq
      omega
end

end TsBuild.Script.Node
