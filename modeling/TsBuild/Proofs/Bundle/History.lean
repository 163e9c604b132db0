import Mathlib.Logic.Hydra
import TsBuild.Proofs.Bundle.Acts
import TsBuild.Proofs.Bundle.Pool

/-!
# Histories of pools

The past of a pool is the list of the moments that led to it. What the outside may do to the world is a
parameter, so that a history can be one of a build in which files change, or of one in which nothing but
the calls does anything. The moments of a call are those of its task (`History.acts`), what a call
reported is what is in the log under its number (`History.own`), and the log has nothing else
(`History.entries_perm`). Calls cannot go on for ever, whatever the order of their steps
(`wellFounded_advances`), so any calls can be taken to where none can go on (`exists_history`).
-/

namespace TsBuild.Bundle

def Moment.isBy (who : Nat) (moment : Moment W ε) : Bool :=
  match moment.actor with
  | .call other => other = who
  | .outside _ => false

def momentsOf (who : Nat) (past : List (Moment W ε)) : List (Moment W ε) := past.filter (·.isBy who)

theorem isBy_call {moment : Moment W ε} : moment.isBy who = true ↔ moment.actor = .call who := by
  cases h : moment.actor <;> simp [Moment.isBy, h]

theorem momentsOf_sublist (who : Nat) (past : List (Moment W ε)) : (momentsOf who past).Sublist past :=
  List.filter_sublist

theorem prefix_momentsOf (who : Nat) (past later : List (Moment W ε)) :
    momentsOf who past <+: momentsOf who (past ++ later) :=
  ⟨momentsOf who later, (List.filter_append ..).symm⟩

theorem momentsOf_snoc_of {moment : Moment W ε} (h : moment.actor = .call who) (past : List (Moment W ε)) :
    momentsOf who (past ++ [moment]) = momentsOf who past ++ [moment] := by
  rw [momentsOf, List.filter_append, List.filter_singleton, isBy_call.mpr h]
  rfl

theorem momentsOf_snoc_of_ne {moment : Moment W ε} (h : moment.actor ≠ .call who)
    (past : List (Moment W ε)) : momentsOf who (past ++ [moment]) = momentsOf who past := by
  rw [momentsOf, List.filter_append, List.filter_singleton,
    Bool.eq_false_iff.mpr (mt isBy_call.mp h)]
  exact List.append_nil _

variable {W ε κ α : Type}

/-- How a pool came to be from an earlier one, moment by moment. A `cause` outside changes the world as
`outside` allows. -/
inductive History (begins : κ → Task W α) (outside : ε → W → W → Prop) (start : Pool W κ α) :
    List (Moment W ε) → Pool W κ α → Prop
  | start : History begins outside start [] start
  | call (h : History begins outside start past pool) (kind : κ) :
      History begins outside start past { pool with calls := pool.calls ++ [(kind, begins kind)] }
  | advance (h : History begins outside start past pool) (hcall : pool.calls[who]? = some (kind, task))
      (hstep : task.step? pool.log.entries pool.world = some (reported, world, left)) :
      History begins outside start
        (past ++ [⟨.call who, pool.log.entries, pool.world, reported, world⟩])
        ⟨pool.log ++ reported.map (who, ·), world, pool.calls.set who (kind, left)⟩
  | outside (h : History begins outside start past pool) (hchange : outside cause pool.world world) :
      History begins outside start
        (past ++ [⟨.outside cause, pool.log.entries, pool.world, [], world⟩]) { pool with world }

/-- The moments are in order: each finds what was reported in those before it. -/
def InOrder (moments : List (Moment W ε)) : Prop :=
  moments.Pairwise fun moment later => moment.log ++ moment.reported <+: later.log

theorem InOrder.snoc {past : List (Moment W ε)} (h : InOrder past)
    (hlast : ∀ moment ∈ past, moment.log ++ moment.reported <+: last.log) : InOrder (past ++ [last]) :=
  List.pairwise_append.mpr ⟨h, List.pairwise_singleton .., fun moment hmem =>
    List.forall_mem_singleton.mpr (hlast moment hmem)⟩

def Undisturbed (past : List (Moment W ε)) : Prop := ∀ moment ∈ past, ∀ cause, moment.actor ≠ .outside cause

theorem Undisturbed.snoc {past : List (Moment W ε)} {last : Moment W ε} (h : Undisturbed past)
    (hlast : last.actor = .call who) : Undisturbed (past ++ [last]) :=
  List.forall_mem_append.mpr ⟨h, List.forall_mem_singleton.mpr fun _ => by simp [hlast]⟩

theorem Undisturbed.of_append {first rest : List (Moment W ε)} (h : Undisturbed (first ++ rest)) :
    Undisturbed first := fun moment hmem => h moment (List.mem_append_left _ hmem)

namespace History

variable {begins : κ → Task W α} {outside : ε → W → W → Prop} {start pool : Pool W κ α}
  {past : List (Moment W ε)}

theorem run {now : Pool W κ α} (h : History begins outside start past pool) (hquiet : Undisturbed past)
    (hrun : pool.run? begins events = some now) (hevents : ∀ world, .change world ∉ events) :
    ∃ past, History begins outside start past now ∧ Undisturbed past := by
  induction events generalizing past pool with
  | nil =>
    cases hrun
    exact ⟨past, h, hquiet⟩
  | cons event rest ih =>
    simp only [Pool.run?, bind, Option.bind_eq_some_iff] at hrun
    obtain ⟨next, hnext, hrun⟩ := hrun
    have hrest : ∀ world, .change world ∉ rest :=
      fun world hmem => hevents world (List.mem_cons_of_mem _ hmem)
    cases event with
    | call kind =>
      cases hnext
      exact ih (h.call kind) hquiet hrun hrest
    | advance who =>
      obtain ⟨kind, task, reported, world, left, hcall, hstep, rfl⟩ := Pool.after_advance hnext
      exact ih (h.advance hcall hstep) (hquiet.snoc rfl) hrun hrest
    | change world => exact absurd List.mem_cons_self (hevents world)

-- ---------------------------------------------------------------------------
-- The moments of a call
-- ---------------------------------------------------------------------------

theorem momentsOf_eq_nil (h : History begins outside start past pool) (hwho : pool.calls.length ≤ who) :
    momentsOf who past = [] := by
  induction h with
  | start => rfl
  | call _ _ ih => exact ih (Nat.le_trans (by simp) hwho)
  | @advance _ pool other _ _ _ _ _ _ hcall _ ih =>
    rw [List.length_set] at hwho
    have hlt : other < pool.calls.length := (List.getElem?_eq_some_iff.mp hcall).1
    rw [momentsOf_snoc_of_ne (by simp; omega), ih hwho]
  | outside _ _ ih => rw [momentsOf_snoc_of_ne (by simp), ih hwho]

/-- What is before a moment of the past led to the world of the moment. -/
theorem before (h : History begins outside start past pool) (hbefore : first ++ [moment] <+: past) :
    ∃ earlier, History begins outside start first earlier ∧ earlier.world = moment.world := by
  induction h with
  | start =>
    have hlength := hbefore.length_le
    simp at hlength
  | call _ _ ih => exact ih hbefore
  | advance h _ _ ih =>
    rcases List.prefix_concat_iff.mp hbefore with heq | hbefore
    · obtain ⟨rfl, hmoment⟩ := List.append_inj' heq rfl
      cases hmoment
      exact ⟨_, h, rfl⟩
    · exact ih hbefore
  | outside h _ ih =>
    rcases List.prefix_concat_iff.mp hbefore with heq | hbefore
    · obtain ⟨rfl, hmoment⟩ := List.append_inj' heq rfl
      cases hmoment
      exact ⟨_, h, rfl⟩
    · exact ih hbefore

theorem acts (h : History begins outside start past pool) (hstart : start.calls = [])
    (hcall : pool.calls[who]? = some (kind, task)) : (begins kind).Acts (momentsOf who past) task := by
  induction h generalizing kind task with
  | start =>
    rw [hstart] at hcall
    cases hcall
  | @call _ pool h _ ih =>
    rw [List.getElem?_append] at hcall
    split at hcall
    · exact ih hcall
    · next hge =>
      rw [h.momentsOf_eq_nil (Nat.le_of_not_lt hge)]
      rw [List.getElem?_singleton] at hcall
      split at hcall
      · cases hcall
        exact .here
      · cases hcall
  | @advance _ pool other _ _ _ _ _ _ hother hstep ih =>
    have hlt : other < pool.calls.length := (List.getElem?_eq_some_iff.mp hother).1
    by_cases hwho : other = who
    · subst hwho
      rw [List.getElem?_set_self hlt] at hcall
      cases hcall
      rw [momentsOf_snoc_of rfl]
      exact (ih hother).snoc hstep
    · rw [List.getElem?_set_ne hwho] at hcall
      rw [momentsOf_snoc_of_ne (by simpa using hwho)]
      exact ih hcall
  | outside _ _ ih =>
    rw [momentsOf_snoc_of_ne (by simp)]
    exact ih hcall

/-- What a call reported is what the log has under its number. -/
theorem own (h : History begins outside start past pool) (who : Nat) :
    pool.log.own who = start.log.own who ++ Task.reportedIn (momentsOf who past) := by
  induction h with
  | start => exact (List.append_nil _).symm
  | call _ _ ih => exact ih
  | @advance _ _ other _ _ reported _ _ _ _ _ ih =>
    rw [SignedLog.own_append, ih]
    by_cases hwho : other = who
    · subst hwho
      rw [momentsOf_snoc_of rfl, Task.reportedIn_append, SignedLog.own_signed, List.append_assoc]
      simp [Task.reportedIn]
    · have hothers : SignedLog.Without (reported.map (other, ·)) who := by
        intro signed hmem
        obtain ⟨entry, -, rfl⟩ := List.mem_map.mp hmem
        exact hwho
      rw [momentsOf_snoc_of_ne (by simpa using hwho), SignedLog.own_of_without hothers, List.append_nil]
  | outside _ _ ih =>
    rw [momentsOf_snoc_of_ne (by simp)]
    exact ih

theorem signed_lt (h : History begins outside start past pool) (hstart : start.log = [])
    (hmem : signed ∈ pool.log) : signed.1 < pool.calls.length := by
  induction h with
  | start =>
    rw [hstart] at hmem
    cases hmem
  | call _ _ ih => exact Nat.lt_of_lt_of_le (ih hmem) (by simp)
  | advance _ hcall _ ih =>
    rw [List.length_set]
    rcases List.mem_append.mp hmem with hmem | hmem
    · exact ih hmem
    · obtain ⟨entry, -, rfl⟩ := List.mem_map.mp hmem
      exact (List.getElem?_eq_some_iff.mp hcall).1
  | outside _ _ ih => exact ih hmem

theorem grows (h : History begins outside start past pool) :
    InOrder past ∧ ∀ moment ∈ past, moment.log ++ moment.reported <+: pool.log.entries := by
  induction h with
  | start => exact ⟨.nil, by simp⟩
  | call _ _ ih => exact ih
  | advance _ _ _ ih =>
    obtain ⟨horder, hbehind⟩ := ih
    refine ⟨horder.snoc hbehind, List.forall_mem_append.mpr
      ⟨fun moment hmem => ?_, List.forall_mem_singleton.mpr ?_⟩⟩
    · rw [SignedLog.entries_append]
      exact (hbehind moment hmem).trans (List.prefix_append _ _)
    · simp [SignedLog.entries]
  | outside _ _ ih =>
    obtain ⟨horder, hbehind⟩ := ih
    refine ⟨horder.snoc hbehind, List.forall_mem_append.mpr ⟨hbehind, List.forall_mem_singleton.mpr ?_⟩⟩
    rw [List.append_nil]

/-- What no call changes is as it was at the start, if nothing outside has done anything. -/
theorem keeps {view : W → σ} (h : History begins outside start past pool) (hstart : start.calls = [])
    (hkeeps : ∀ kind, Task.Keeps view (begins kind)) (hquiet : Undisturbed past) :
    (∀ moment ∈ past, view moment.world = view start.world) ∧ view pool.world = view start.world := by
  induction h with
  | start => exact ⟨nofun, rfl⟩
  | call _ _ ih => exact ih hquiet
  | advance h hcall hstep ih =>
    have ih := ih hquiet.of_append
    have htask : Task.Keeps view _ := (h.acts hstart hcall).each (hkeeps _)
    exact ⟨List.forall_mem_append.mpr ⟨ih.1, List.forall_mem_singleton.mpr ih.2⟩,
      (htask.view_eq hstep).trans ih.2⟩
  | @outside _ _ cause => exact absurd rfl (hquiet _ (List.mem_append_right _ List.mem_cons_self) cause)

end History

-- ---------------------------------------------------------------------------
-- Logs by their calls
-- ---------------------------------------------------------------------------

/-- A log is made up of what its calls reported, in some order. -/
theorem SignedLog.entries_perm {log : SignedLog} (h : ∀ signed ∈ log, signed.1 < n) :
    log.entries.Perm ((List.range n).flatMap log.own) := by
  induction n generalizing log with
  | zero =>
    have hnil : log = [] := List.eq_nil_iff_forall_not_mem.mpr fun signed hmem => by simpa using h signed hmem
    rw [hnil]
    exact .nil
  | succ n ih =>
    let others := log.filter fun signed => !decide (signed.1 = n)
    have hothers : ∀ signed ∈ others, signed.1 < n := by
      intro signed hmem
      obtain ⟨hmem, hne⟩ := List.mem_filter.mp hmem
      have hlt := h signed hmem
      simp only [Bool.not_eq_true', decide_eq_false_iff_not] at hne
      omega
    have hsame : ∀ who ∈ List.range n, own who others = log.own who := by
      intro who hwho
      have hlt := List.mem_range.mp hwho
      rw [own, own, List.filter_filter]
      congr 1
      refine List.filter_congr fun signed _ => ?_
      by_cases hsigned : signed.1 = who
      · simp [hsigned, Nat.ne_of_lt hlt]
      · simp [hsigned]
    have hsplit : log.entries.Perm (log.own n ++ entries others) := by
      rw [own, ← entries_append]
      exact ((List.filter_append_perm (·.1 = n) log).map Prod.snd).symm
    rw [List.range_succ, List.flatMap_append, List.flatMap_singleton]
    refine hsplit.trans (List.perm_append_comm.trans (List.Perm.append_right _ ?_))
    rw [← List.flatMap_congr hsame]
    exact ih hothers

theorem flatMap_range_length {calls : List α} {own : Nat → List β} {due : α → List β}
    (h : ∀ who call, calls[who]? = some call → own who = due call) :
    (List.range calls.length).flatMap own = calls.flatMap due := by
  induction calls generalizing own with
  | nil => rfl
  | cons call rest ih =>
    rw [List.length_cons, List.range_succ_eq_map, List.flatMap_cons, List.flatMap_map, List.flatMap_cons,
      h 0 call rfl, ih fun who call hcall => h (who + 1) call hcall]

/-- If each call reported what is due for its kind, the log has that and nothing else. -/
theorem History.entries_perm {begins : κ → Task W α} {outside : ε → W → W → Prop} {pool : Pool W κ α}
    {past : List (Moment W ε)} {due : κ → Log} (h : History begins outside { world } past pool)
    (hdue : ∀ who kind task, pool.calls[who]? = some (kind, task) → pool.log.own who = due kind) :
    pool.log.entries.Perm ((pool.calls.map Prod.fst).flatMap due) := by
  rw [List.flatMap_map, ← flatMap_range_length fun who call => hdue who call.1 call.2]
  exact SignedLog.entries_perm fun signed hsigned => h.signed_lt rfl hsigned

-- ---------------------------------------------------------------------------
-- Calls come to an end
-- ---------------------------------------------------------------------------

def Task.Steps (left task : Task W α) : Prop :=
  ∃ seen w reported w', task.step? seen w = some (reported, w', left)

theorem wellFounded_steps : WellFounded (Task.Steps (W := W) (α := α)) := by
  refine ⟨fun task => ?_⟩
  induction task with
  | done a =>
    refine ⟨_, ?_⟩
    rintro left ⟨_, _, _, _, hstep⟩
    cases hstep
  | report entry next ih =>
    refine ⟨_, ?_⟩
    rintro left ⟨_, _, _, _, hstep⟩
    cases hstep
    exact ih
  | observe next ih =>
    refine ⟨_, ?_⟩
    rintro left ⟨_, _, _, _, hstep⟩
    cases hstep
    exact ih _
  | act ready effect next ih =>
    refine ⟨_, ?_⟩
    rintro left ⟨_, _, _, _, hstep⟩
    obtain ⟨-, -, -, rfl⟩ := Task.step_act.mp hstep
    exact ih _

def Pool.Advances (begins : κ → Task W α) (next pool : Pool W κ α) : Prop :=
  ∃ who, pool.after? begins (.advance who) = some next

def Pool.tasks (pool : Pool W κ α) : Multiset (Task W α) := pool.calls.map Prod.snd

theorem Pool.Advances.cutExpand {next pool : Pool W κ α} (h : Pool.Advances begins next pool) :
    Relation.CutExpand Task.Steps next.tasks pool.tasks := by
  obtain ⟨who, h⟩ := h
  obtain ⟨kind, task, reported, world, left, hcall, hstep, rfl⟩ := Pool.after_advance h
  obtain ⟨hlt, hcall⟩ := List.getElem?_eq_some_iff.mp hcall
  refine ⟨{left}, task, ?_, ?_⟩
  · intro other hmem
    rw [Multiset.mem_singleton.mp hmem]
    exact ⟨_, _, _, _, hstep⟩
  · have hset : (pool.calls.set who (kind, left)).Perm ((kind, left) :: pool.calls.eraseIdx who) :=
      List.set_perm_cons_eraseIdx hlt _
    have hget : pool.calls.Perm ((kind, task) :: pool.calls.eraseIdx who) :=
      hcall ▸ (List.getElem_cons_eraseIdx_perm hlt).symm
    rw [tasks, tasks, Multiset.coe_eq_coe.mpr (hset.map _), Multiset.coe_eq_coe.mpr (hget.map _)]
    simp only [List.map_cons, ← Multiset.cons_coe, ← Multiset.singleton_add]
    ac_rfl

/-- There is no infinite order of steps of calls. -/
theorem wellFounded_advances (begins : κ → Task W α) : WellFounded (Pool.Advances begins) :=
  Subrelation.wf Pool.Advances.cutExpand (InvImage.wf Pool.tasks wellFounded_steps.cutExpand)

def Pool.IsStill (begins : κ → Task W α) (pool : Pool W κ α) : Prop :=
  ∀ who, pool.after? begins (.advance who) = none

theorem Pool.IsStill.step_isNone {begins : κ → Task W α} {pool : Pool W κ α} {who : Nat} {kind : κ}
    {task : Task W α} (h : pool.IsStill begins) (hcall : pool.calls[who]? = some (kind, task)) :
    ¬(task.step? pool.log.entries pool.world).isSome := by
  intro hsome
  obtain ⟨⟨reported, world, left⟩, hstep⟩ := Option.isSome_iff_exists.mp hsome
  have hnone := h who
  simp [Pool.after?, hcall, hstep] at hnone

theorem exists_still (begins : κ → Task W α) (pool : Pool W κ α) :
    ∃ events now, (∀ event ∈ events, ∃ who, event = .advance who) ∧ pool.run? begins events = some now ∧
      now.IsStill begins ∧ now.calls.map Prod.fst = pool.calls.map Prod.fst := by
  induction pool using (wellFounded_advances begins).induction with
  | h pool ih =>
    by_cases hstill : pool.IsStill begins
    · exact ⟨[], pool, nofun, rfl, hstill, rfl⟩
    · -- The step of a call that can go on comes first, and less is left after it.
      simp only [Pool.IsStill, not_forall, ← Option.isSome_iff_ne_none] at hstill
      obtain ⟨who, hsome⟩ := hstill
      obtain ⟨next, hnext⟩ := Option.isSome_iff_exists.mp hsome
      obtain ⟨events, now, hevents, hrun, hnow, hcalls⟩ := ih next ⟨who, hnext⟩
      refine ⟨.advance who :: events, now, ?_, ?_, hnow, hcalls.trans ?_⟩
      · intro event hmem
        rcases List.mem_cons.mp hmem with rfl | hmem
        · exact ⟨who, rfl⟩
        · exact hevents event hmem
      · rw [Pool.run?, hnext]
        exact hrun
      · obtain ⟨kind, task, _, _, left, hcall, -, rfl⟩ := Pool.after_advance hnext
        obtain ⟨hlt, hcall⟩ := List.getElem?_eq_some_iff.mp hcall
        have hlt' : who < (pool.calls.map Prod.fst).length := by rwa [List.length_map]
        have hkind : kind = (pool.calls.map Prod.fst)[who] := by rw [List.getElem_map, hcall]
        rw [List.map_set, hkind, List.set_getElem_self]

/-- Any calls can be taken to where none can go on. -/
theorem exists_history (begins : κ → Task W α) (outside : ε → W → W → Prop) (world : W) (kinds : List κ) :
    ∃ past pool, History begins outside { world } past pool ∧ Undisturbed past ∧ pool.IsStill begins ∧
      pool.calls.map Prod.fst = kinds := by
  have hbegun : History begins outside { world } []
      { world, calls := kinds.map fun kind => (kind, begins kind) } := by
    induction kinds using List.reverseRecOn with
    | nil => exact .start
    | append_singleton rest kind ih =>
      rw [List.map_append]
      exact ih.call kind
  obtain ⟨events, pool, hevents, hrun, hstill, hcalls⟩ := exists_still begins
    { world, calls := kinds.map fun kind => (kind, begins kind) }
  obtain ⟨past, h, hquiet⟩ := hbegun.run nofun hrun fun world hmem => by
    obtain ⟨who, hwho⟩ := hevents _ hmem
    cases hwho
  refine ⟨past, pool, h, hquiet, hstill, hcalls.trans ?_⟩
  rw [List.map_map]
  exact List.map_id _

theorem Pool.exists_task {pool : Pool W κ α} {kinds : List κ} {who : Nat}
    (hcalls : pool.calls.map Prod.fst = kinds) (hkind : kinds[who]? = some kind) :
    ∃ task, pool.calls[who]? = some (kind, task) := by
  rw [← hcalls, List.getElem?_map, Option.map_eq_some_iff] at hkind
  obtain ⟨⟨kind, task⟩, hcall, rfl⟩ := hkind
  exact ⟨task, hcall⟩

end TsBuild.Bundle
