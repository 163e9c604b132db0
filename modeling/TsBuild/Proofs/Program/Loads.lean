import Mathlib.Logic.Relation
import TsBuild.Program.Load

/-!
# Loading request by request

Loading as a worklist: each step takes the first request, and what a file leads to comes behind all others
(`Step`). `loadAll` is a run of it that ends when no request is left, or at a file more than it has room
for (`reaches_loadAll`). What is loaded is sound at each point of a run (`sound_of_reaches`), and has each property
of names that files hand on to those they lead to (`all_of_reaches`). A run misses the roots that cannot be
read (`unreadableRoots_reaches`), loads in the order of the requests (`prefix_order_of_reaches`), and leaves
out nothing that a loaded file leads to (`complete_of_reaches`).
-/

namespace TsBuild

-- ---------------------------------------------------------------------------
-- Determined steps
-- ---------------------------------------------------------------------------

section
variable {α : Type} {step : α → α → Prop} {start state last : α}

/-- Where each state has at most one next state, a run that comes to an end leaves no endless one. -/
theorem acc_of_reaches (hunique : Relator.RightUnique step) (h : Relation.ReflTransGen step start last)
    (hlast : ∀ next, ¬ step last next) : Acc (fun next state => step state next) start := by
  induction h using Relation.ReflTransGen.head_induction_on with
  | refl => exact .intro _ fun next hstep => absurd hstep (hlast next)
  | head hstep _ ih => exact .intro _ fun other hother => hunique hstep hother ▸ ih

theorem reaches_last (hunique : Relator.RightUnique step) (h : Relation.ReflTransGen step start last)
    (hlast : ∀ next, ¬ step last next) (hstate : Relation.ReflTransGen step start state) :
    Relation.ReflTransGen step state last := by
  rcases hstate.total_of_right_unique hunique h with hahead | hbehind
  · exact hahead
  · rcases hbehind.cases_head with rfl | ⟨next, hstep, -⟩
    · exact .refl
    · exact absurd hstep (hlast next)

end

namespace Program

-- ---------------------------------------------------------------------------
-- Worklists
-- ---------------------------------------------------------------------------

structure Worklist where
  requests : List Request
  loading : Loading

def Loading.names (loading : Loading) : List String :=
  loading.files.reverse.map (·.source.name)

def readable (fs : FileSystem) (name : String) : Bool := (readSource? fs name).isSome

/-- A file is known by its name, and missed if it is a root that cannot be read; otherwise it is loaded, and
what it leads to is requested. -/
inductive Step (fs : FileSystem) (analyse : SourceFile → Facts) (typeRoots : List String) :
    Worklist → Worklist → Prop
  | known (h : loading.has request.name = true) :
      Step fs analyse typeRoots ⟨request :: rest, loading⟩ ⟨rest, loading⟩
  | missing (hnew : loading.has request.name = false) (hread : readSource? fs request.name = none)
      (hroot : request.isRoot = true) :
      Step fs analyse typeRoots ⟨request :: rest, loading⟩
        ⟨rest, { loading with missing := request.name :: loading.missing }⟩
  | unreadable (hnew : loading.has request.name = false) (hread : readSource? fs request.name = none)
      (hroot : request.isRoot = false) :
      Step fs analyse typeRoots ⟨request :: rest, loading⟩ ⟨rest, loading⟩
  | load (hnew : loading.has request.name = false) (hread : readSource? fs request.name = some source) :
      Step fs analyse typeRoots ⟨request :: rest, loading⟩
        ⟨rest ++ (targets fs typeRoots ⟨source, analyse source⟩).map (⟨·, false⟩),
          { loading with files := ⟨source, analyse source⟩ :: loading.files }⟩

abbrev Reaches (fs : FileSystem) (analyse : SourceFile → Facts) (typeRoots : List String) :
    Worklist → Worklist → Prop :=
  Relation.ReflTransGen (Step fs analyse typeRoots)

variable {fs : FileSystem} {analyse : SourceFile → Facts} {typeRoots : List String}
  {work next other last : Worklist} {loading later : Loading} {queue rest : List Request}

theorem Step.unique (h : Step fs analyse typeRoots work next) (h' : Step fs analyse typeRoots work other) :
    next = other := by
  cases h <;> cases h' <;> simp_all

theorem not_step_nil : ¬ Step fs analyse typeRoots ⟨[], loading⟩ next := by
  rintro ⟨⟩

theorem name_of_readSource (h : readSource? fs name = some source) : source.name = name := by
  obtain ⟨text, -, rfl⟩ := Option.map_eq_some_iff.mp h
  rfl

theorem readText_of_readSource (h : readSource? fs name = some source) :
    ∃ text, fs.readText name = .ok text := by
  obtain ⟨text, htext, -⟩ := Option.map_eq_some_iff.mp h
  cases hresult : fs.readText name with
  | error => rw [hresult] at htext; cases htext
  | ok read => exact ⟨read, rfl⟩

theorem readable_iff : readable fs name = true ↔ ∃ source, readSource? fs name = some source := by
  rw [readable, Option.isSome_iff_exists]

theorem mem_names : name ∈ loading.names ↔ ∃ file ∈ loading.files, file.source.name = name := by
  simp [Loading.names]

theorem has_iff : loading.has name = true ↔ name ∈ loading.names := by
  simp [Loading.has, mem_names]

theorem names_cons (file : LoadedFile) (files : List LoadedFile) (missing : List String) :
    Loading.names ⟨file :: files, missing⟩ = Loading.names ⟨files, missing⟩ ++ [file.source.name] := by
  simp [Loading.names]

theorem names_eq (loading : Loading) (missing : List String) :
    Loading.names ⟨loading.files, missing⟩ = loading.names := rfl

-- ---------------------------------------------------------------------------
-- Runs of `loadAll`
-- ---------------------------------------------------------------------------

/-- Requests are passed over until none is left, or up to one that is loaded next. -/
def Passes (fs : FileSystem) (analyse : SourceFile → Facts) (typeRoots : List String) (work : Worklist) :
    Option (SourceFile × List Request) × Loading → Prop
  | (none, later) => later.files = work.loading.files ∧ Reaches fs analyse typeRoots work ⟨[], later⟩
  | (some (source, rest), later) => later.files = work.loading.files ∧
      ∃ request, Reaches fs analyse typeRoots work ⟨request :: rest, later⟩ ∧
        later.has request.name = false ∧ readSource? fs request.name = some source

theorem Passes.head (hstep : Step fs analyse typeRoots work next)
    (hfiles : next.loading.files = work.loading.files) (h : Passes fs analyse typeRoots next result) :
    Passes fs analyse typeRoots work result := by
  obtain ⟨_ | ⟨source, rest⟩, later⟩ := result
  · exact ⟨h.1.trans hfiles, .head hstep h.2⟩
  · obtain ⟨hlater, request, hreaches, hrequest⟩ := h
    exact ⟨hlater.trans hfiles, request, .head hstep hreaches, hrequest⟩

theorem passes_takeNext (fs : FileSystem) (analyse : SourceFile → Facts) (typeRoots : List String)
    (queue : List Request) (loading : Loading) :
    Passes fs analyse typeRoots ⟨queue, loading⟩ (takeNext fs queue loading) := by
  induction queue generalizing loading with
  | nil => exact ⟨rfl, .refl⟩
  | cons request queue ih =>
    rw [takeNext]
    split
    · rename_i hhas
      exact .head (.known hhas) rfl (ih loading)
    · rename_i hhas
      rw [Bool.not_eq_true] at hhas
      split
      · rename_i hread
        exact ⟨rfl, request, .refl, hhas, hread⟩
      · rename_i hread
        split
        · rename_i hroot
          exact .head (.missing hhas hread hroot) rfl (ih _)
        · rename_i hroot
          exact .head (.unreadable hhas hread (by simpa using hroot)) rfl (ih loading)

/-- Loading is a run up to an empty worklist, or up to a file more than there is room for. -/
theorem reaches_loadAll (fs : FileSystem) (analyse : SourceFile → Facts) (typeRoots : List String)
    (fuel : Nat) (queue : List Request) (loading : Loading) :
    let last := loadAll fs analyse typeRoots fuel queue loading
    ∃ rest, Reaches fs analyse typeRoots ⟨queue, loading⟩ ⟨rest, last⟩ ∧
      (rest = [] ∨ last.files.length = loading.files.length + fuel ∧
        ∃ request ∈ rest, last.has request.name = false ∧ readable fs request.name = true) := by
  induction fuel generalizing queue loading with
  | zero =>
    rw [loadAll]
    have hpasses := passes_takeNext fs analyse typeRoots queue loading
    cases hnext : takeNext fs queue loading with
    | mk taken later =>
      rw [hnext] at hpasses
      cases taken with
      | none => exact ⟨[], hpasses.2, .inl rfl⟩
      | some taken =>
        obtain ⟨hfiles, request, hreaches, hnew, hread⟩ := hpasses
        exact ⟨_, hreaches, .inr ⟨congrArg List.length hfiles, request, List.mem_cons_self, hnew,
          readable_iff.mpr ⟨_, hread⟩⟩⟩
  | succ fuel ih =>
    rw [loadAll]
    have hpasses := passes_takeNext fs analyse typeRoots queue loading
    cases hnext : takeNext fs queue loading with
    | mk taken later =>
      rw [hnext] at hpasses
      cases taken with
      | none => exact ⟨[], hpasses.2, .inl rfl⟩
      | some taken =>
        obtain ⟨hfiles, request, hreaches, hnew, hread⟩ := hpasses
        obtain ⟨rest, hlater, hend⟩ := ih (taken.2 ++ _)
          { later with files := ⟨taken.1, analyse taken.1⟩ :: later.files }
        refine ⟨rest, hreaches.trans (.head (.load hnew hread) hlater), hend.imp_right ?_⟩
        rintro ⟨hlength, hrequest⟩
        refine ⟨hlength.trans ?_, hrequest⟩
        simp only [List.length_cons, hfiles]
        omega

-- ---------------------------------------------------------------------------
-- What runs keep
-- ---------------------------------------------------------------------------

/-- Each file is loaded once, with the text that is read for its name. -/
structure Loading.Sound (fs : FileSystem) (analyse : SourceFile → Facts) (loading : Loading) : Prop where
  nodup : loading.names.Nodup
  read : ∀ file ∈ loading.files, readSource? fs file.source.name = some file.source
  facts : ∀ file ∈ loading.files, file.facts = analyse file.source

theorem Loading.Sound.empty : Loading.empty.Sound fs analyse where
  nodup := .nil
  read := by simp [Loading.empty]
  facts := by simp [Loading.empty]

theorem Loading.Sound.step (h : work.loading.Sound fs analyse) (hstep : Step fs analyse typeRoots work next) :
    next.loading.Sound fs analyse := by
  cases hstep with
  | known => exact h
  | missing => exact ⟨h.nodup, h.read, h.facts⟩
  | unreadable => exact h
  | load hnew hread =>
    have hname := name_of_readSource hread
    refine ⟨?_, List.forall_mem_cons.mpr ⟨?_, h.read⟩, List.forall_mem_cons.mpr ⟨rfl, h.facts⟩⟩
    · rw [names_cons, hname, List.nodup_append]
      refine ⟨h.nodup, List.pairwise_singleton _ _, fun name hmem other hother heq => ?_⟩
      rw [List.mem_singleton.mp hother] at heq
      rw [← heq, has_iff.mpr hmem] at hnew
      cases hnew
    · rw [hname]
      exact hread

theorem Loading.Sound.reaches (h : work.loading.Sound fs analyse)
    (hreaches : Reaches fs analyse typeRoots work last) : last.loading.Sound fs analyse := by
  induction hreaches with
  | refl => exact h
  | tail _ hstep ih => exact ih.step hstep

theorem Loading.Sound.keeps {I : Worklist → Prop} (h : work.loading.Sound fs analyse) (hwork : I work)
    (hkeeps : ∀ {work next}, work.loading.Sound fs analyse → Step fs analyse typeRoots work next →
      I work → I next)
    (hreaches : Reaches fs analyse typeRoots work last) : I last := by
  induction hreaches with
  | refl => exact hwork
  | tail hreaches hstep ih => exact hkeeps (h.reaches hreaches) hstep ih

theorem Loading.Sound.readable (h : loading.Sound fs analyse) (hmem : name ∈ loading.names) :
    Program.readable fs name = true := by
  obtain ⟨file, hfile, rfl⟩ := mem_names.mp hmem
  exact readable_iff.mpr ⟨_, h.read file hfile⟩

structure Worklist.All (P : String → Prop) (work : Worklist) : Prop where
  requests : ∀ request ∈ work.requests, P request.name
  names : ∀ name ∈ work.loading.names, P name

/-- Files hand a property on to the files they lead to. -/
def Spreads (fs : FileSystem) (analyse : SourceFile → Facts) (typeRoots : List String)
    (P : String → Prop) : Prop :=
  ∀ source, readSource? fs source.name = some source → P source.name →
    ∀ target ∈ targets fs typeRoots ⟨source, analyse source⟩, P target

theorem Worklist.All.step {P : String → Prop} (h : work.All P) (hspreads : Spreads fs analyse typeRoots P)
    (hstep : Step fs analyse typeRoots work next) : next.All P := by
  obtain ⟨hrequests, hnames⟩ := h
  cases hstep with
  | known => exact ⟨(List.forall_mem_cons.mp hrequests).2, hnames⟩
  | missing => exact ⟨(List.forall_mem_cons.mp hrequests).2, hnames⟩
  | unreadable => exact ⟨(List.forall_mem_cons.mp hrequests).2, hnames⟩
  | load hnew hread =>
    obtain ⟨hrequest, hrest⟩ := List.forall_mem_cons.mp hrequests
    rw [← name_of_readSource hread] at hrequest hread
    refine ⟨List.forall_mem_append.mpr ⟨hrest, ?_⟩, ?_⟩
    · simpa using hspreads _ hread hrequest
    · rw [names_cons]
      exact List.forall_mem_append.mpr ⟨hnames, by simpa using hrequest⟩

theorem Worklist.All.reaches {P : String → Prop} (h : work.All P)
    (hspreads : Spreads fs analyse typeRoots P) (hreaches : Reaches fs analyse typeRoots work last) :
    last.All P := by
  induction hreaches with
  | refl => exact h
  | tail _ hstep ih => exact ih.step hspreads hstep

-- ---------------------------------------------------------------------------
-- Missing roots
-- ---------------------------------------------------------------------------

def Worklist.unreadableRoots (fs : FileSystem) (work : Worklist) : List String :=
  work.loading.missing.reverse ++
    (work.requests.filter fun request => request.isRoot && !readable fs request.name).map (·.name)

theorem unreadableRoots_step (h : work.loading.Sound fs analyse)
    (hstep : Step fs analyse typeRoots work next) :
    next.unreadableRoots fs = work.unreadableRoots fs := by
  cases hstep with
  | known hhas =>
    have hread := h.readable (has_iff.mp hhas)
    simp [Worklist.unreadableRoots, hread]
  | missing _ hread hroot => simp [Worklist.unreadableRoots, readable, hread, hroot]
  | unreadable _ hread hroot => simp [Worklist.unreadableRoots, hroot]
  | load _ hread => simp [Worklist.unreadableRoots, readable, hread, List.filter_append, List.filter_map]

theorem unreadableRoots_reaches (h : work.loading.Sound fs analyse)
    (hreaches : Reaches fs analyse typeRoots work last) :
    last.unreadableRoots fs = work.unreadableRoots fs :=
  h.keeps (I := fun later => later.unreadableRoots fs = work.unreadableRoots fs) rfl
    (fun hsound hstep ih => (unreadableRoots_step hsound hstep).trans ih) hreaches

-- ---------------------------------------------------------------------------
-- Order
-- ---------------------------------------------------------------------------

/-- The files in the order in which they are loaded, as far as it is known: those loaded, then those
requested that can be read. -/
def Worklist.order (fs : FileSystem) (work : Worklist) : List String :=
  (work.loading.names ++ (work.requests.map (·.name)).filter (readable fs)).eraseDups

theorem mem_order : name ∈ work.order fs ↔
    name ∈ work.loading.names ∨ (∃ request ∈ work.requests, request.name = name) ∧ readable fs name := by
  simp [Worklist.order, List.mem_eraseDups]

theorem eraseDups_prefix_append (names more : List String) :
    names.eraseDups <+: (names ++ more).eraseDups := by
  rw [List.eraseDups_append]
  exact List.prefix_append _ _

theorem order_cons_of_mem (h : loading.Sound fs analyse) (hmem : request.name ∈ loading.names) :
    Worklist.order fs ⟨request :: rest, loading⟩ = Worklist.order fs ⟨rest, loading⟩ := by
  rw [Worklist.order, Worklist.order, List.map_cons, List.filter_cons_of_pos (h.readable hmem),
    List.eraseDups_append, List.eraseDups_append, List.cons_removeAll, if_neg (by simpa using hmem)]

theorem order_cons_of_unreadable (hread : readSource? fs request.name = none) :
    Worklist.order fs ⟨request :: rest, loading⟩ = Worklist.order fs ⟨rest, loading⟩ := by
  rw [Worklist.order, Worklist.order, List.map_cons, List.filter_cons_of_neg (by simp [readable, hread])]

theorem order_step (h : work.loading.Sound fs analyse) (hstep : Step fs analyse typeRoots work next) :
    work.order fs <+: next.order fs := by
  cases hstep with
  | known hhas => exact ⟨[], (List.append_nil _).trans (order_cons_of_mem h (has_iff.mp hhas))⟩
  | missing _ hread => exact ⟨[], (List.append_nil _).trans (order_cons_of_unreadable hread)⟩
  | unreadable _ hread => exact ⟨[], (List.append_nil _).trans (order_cons_of_unreadable hread)⟩
  | load _ hread =>
    rw [Worklist.order, Worklist.order, List.map_cons, List.filter_cons_of_pos (by simp [readable, hread]),
      names_cons, name_of_readSource hread, names_eq, List.map_append, List.filter_append,
      List.append_assoc, List.singleton_append, ← List.cons_append, ← List.append_assoc]
    exact eraseDups_prefix_append _ _

theorem order_reaches (h : work.loading.Sound fs analyse) (hreaches : Reaches fs analyse typeRoots work last) :
    work.order fs <+: last.order fs :=
  h.keeps (I := fun later => work.order fs <+: later.order fs) List.prefix_rfl
    (fun hsound hstep ih => ih.trans (order_step hsound hstep)) hreaches

theorem eraseDups_eq_self {names : List String} (h : names.Nodup) : names.eraseDups = names := by
  induction names with
  | nil => rfl
  | cons name rest ih =>
    obtain ⟨hnew, hrest⟩ := List.nodup_cons.mp h
    have hfilter : rest.filter (fun other => !other == name) = rest :=
      List.filter_eq_self.mpr fun other hmem => by simpa using ne_of_mem_of_not_mem hmem hnew
    rw [List.eraseDups_cons, hfilter, ih hrest]

theorem eraseDups_sublist : (names : List String) → names.eraseDups.Sublist names
  | [] => .slnil
  | name :: rest => by
    rw [List.eraseDups_cons]
    exact ((eraseDups_sublist _).trans List.filter_sublist).cons_cons name
termination_by names => names.length
decreasing_by exact Nat.lt_succ_of_le (List.length_filter_le _ _)

theorem names_prefix_order (h : work.loading.Sound fs analyse) : work.loading.names <+: work.order fs := by
  have hprefix := eraseDups_prefix_append work.loading.names
    ((work.requests.map (·.name)).filter (readable fs))
  rwa [eraseDups_eq_self h.nodup] at hprefix

theorem order_of_nil (h : loading.Sound fs analyse) : Worklist.order fs ⟨[], loading⟩ = loading.names := by
  rw [Worklist.order, List.map_nil, List.filter_nil, List.append_nil, eraseDups_eq_self h.nodup]

/-- What a loaded file leads to has its place in the order, if it can be read. -/
def Worklist.Complete (fs : FileSystem) (typeRoots : List String) (work : Worklist) : Prop :=
  ∀ file ∈ work.loading.files, ∀ target ∈ targets fs typeRoots file, readable fs target = true →
    target ∈ work.order fs

theorem Worklist.Complete.step (h : work.Complete fs typeRoots) (hsound : work.loading.Sound fs analyse)
    (hstep : Step fs analyse typeRoots work next) : next.Complete fs typeRoots := by
  have hstays : ∀ file ∈ work.loading.files, ∀ target ∈ targets fs typeRoots file,
      readable fs target = true → target ∈ next.order fs :=
    fun file hfile target htarget hread => (order_step hsound hstep).subset (h file hfile target htarget hread)
  cases hstep with
  | known => exact hstays
  | missing => exact hstays
  | unreadable => exact hstays
  | load =>
    refine List.forall_mem_cons.mpr ⟨fun target htarget hread => ?_, hstays⟩
    exact mem_order.mpr (.inr ⟨⟨⟨target, false⟩, by simp [htarget], rfl⟩, hread⟩)

theorem Worklist.Complete.reaches (h : work.Complete fs typeRoots) (hsound : work.loading.Sound fs analyse)
    (hreaches : Reaches fs analyse typeRoots work last) : last.Complete fs typeRoots :=
  hsound.keeps h (fun hsound hstep ih => ih.step hsound hstep) hreaches

-- ---------------------------------------------------------------------------
-- From the start
-- ---------------------------------------------------------------------------

def Worklist.start (requests : List Request) : Worklist := ⟨requests, .empty⟩

section
variable {requests : List Request} (h : Reaches fs analyse typeRoots (.start requests) work)
include h

theorem sound_of_reaches : work.loading.Sound fs analyse := by
  have hstart : (Worklist.start requests).loading.Sound fs analyse := .empty
  exact hstart.reaches h

theorem all_of_reaches {P : String → Prop} (hrequests : ∀ request ∈ requests, P request.name)
    (hspreads : Spreads fs analyse typeRoots P) : work.All P := by
  have hstart : (Worklist.start requests).All P := ⟨hrequests, fun _ hmem => nomatch hmem⟩
  exact hstart.reaches hspreads h

theorem complete_of_reaches : work.Complete fs typeRoots := by
  have hstart : (Worklist.start requests).Complete fs typeRoots := fun _ hmem => nomatch hmem
  exact hstart.reaches .empty h

/-- The requests that can be read come first in the order, each where it occurs first. -/
theorem prefix_order_of_reaches :
    ((requests.map (·.name)).filter (readable fs)).eraseDups <+: work.order fs :=
  order_reaches .empty h

end

end Program

end TsBuild
