import TsBuild.Proofs.Bundle.History

/-!
# Values computed once

Calls that race for a value wait for the one that computes it. `Once.Stage` says where the value is: no
call has asked for it, one call is computing it, or it is there and will stay. The stage goes on with
each moment of a history (`stage_of_history`), so the value is computed at most once, and every call that
has asked for it has found the same (`acts_once`).
-/

namespace TsBuild.Bundle

namespace Task

theorem bind_done (task : Task W α) : task >>= Task.done = task := by
  induction task with
  | done a => rfl
  | report entry next ih => exact congrArg (report entry) ih
  | observe next ih => exact congrArg observe (funext ih)
  | act ready effect next ih => exact congrArg (act ready effect) (funext ih)

end Task

-- ---------------------------------------------------------------------------
-- Cells
-- ---------------------------------------------------------------------------

theorem Cell.not_isBusy {cell : Cell α} : (!cell.isBusy) = true ↔ cell ≠ .busy := by
  cases cell <;> simp [isBusy]

/-- How a cell may change: it is filled at most once. -/
inductive Cell.Before : Cell α → Cell α → Prop
  | same : Cell.Before cell cell
  | claimed : Cell.Before .empty .busy
  | filled : Cell.Before .busy (.full a)
  | claimedAndFilled : Cell.Before .empty (.full a)

theorem Cell.Before.trans {first second third : Cell α} (h : first.Before second) (h' : second.Before third) :
    first.Before third := by
  cases h <;> cases h' <;> constructor

theorem Cell.Before.of_full {cell : Cell α} (h : (Cell.full a).Before cell) : cell = .full a := by
  cases h
  rfl

def Slot.fill (slot : Slot W α) (next : α → Task W β) (value : α) : Task W β :=
  .act (fun _ => true) (slot.set (.full value)) fun _ => next value

theorem Slot.once_bind (slot : Slot W α) (compute : Task W α) (next : α → Task W β) :
    slot.once compute >>= next =
      .act (fun w => !(slot.get w).isBusy) (fun w => slot.set (slot.get w).claimed w) fun w =>
        match slot.get w with
        | .full value => next value
        | _ => compute >>= slot.fill next := by
  refine congrArg (Task.act _ _) (funext fun w => ?_)
  show (match slot.get w with
    | .full value => Task.done value
    | _ => compute >>= fun value => Task.modify (slot.set (.full value)) >>= fun _ => pure value) >>=
      next = _
  cases slot.get w with
  | full value => rfl
  | empty | busy => exact Task.bind_bind ..

/-- A value that is computed once. `count` is how often it was, as far as a world tells. -/
structure Once (W α : Type) where
  slot : Slot W α
  compute : Task W α
  count : W → Nat
  get_set : ∀ cell w, slot.get (slot.set cell w) = cell
  count_set : ∀ cell w, count (slot.set cell w) = count w
  keeps : Task.Keeps slot.get compute
  spends : Task.Spends count 1 compute

namespace Once

open TsBuild.Bundle.Task (Each Goes Spends Acts step_act step_bind)

variable {once : Once W α}

def get (once : Once W α) : Task W α := once.slot.once once.compute

def Ignores (once : Once W α) (effect : W → W) : Prop :=
  ∀ w, once.slot.get (effect w) = once.slot.get w ∧ once.count (effect w) = once.count w

-- ---------------------------------------------------------------------------
-- Tasks that ask for the value
-- ---------------------------------------------------------------------------

inductive Uses (once : Once W α) {β : Type} : Task W β → Prop
  | done : Uses once (.done b)
  | report (rest : Uses once next) : Uses once (.report entry next)
  | observe (rest : ∀ seen, Uses once (next seen)) : Uses once (.observe next)
  | act (h : once.Ignores effect) (rest : ∀ w, Uses once (next w)) : Uses once (.act ready effect next)
  | ask (rest : ∀ a, Uses once (next a)) : Uses once (once.get >>= next)

theorem uses_bind {task : Task W β} {f : β → Task W γ} (h : once.Uses task) (h' : ∀ b, once.Uses (f b)) :
    once.Uses (task >>= f) := by
  induction h with
  | done => exact h' _
  | report _ ih => exact .report ih
  | observe _ ih => exact .observe ih
  | act hignores _ ih => exact .act hignores ih
  | ask _ ih =>
    rw [Task.bind_bind]
    exact .ask ih

theorem closed_uses (once : Once W α) : Task.Closed once.Uses where
  done _ := .done
  report := .report
  observe := .observe
  bind := uses_bind

theorem uses_get (once : Once W α) : once.Uses once.get := by
  rw [← Task.bind_done once.get]
  exact .ask fun _ => .done

theorem uses_of_each {task : Task W β} (h : Each (fun _ => once.Ignores) task) : once.Uses task := by
  induction h with
  | done => exact .done
  | report _ ih => exact .report ih
  | observe _ ih => exact .observe ih
  | act hignores _ ih => exact .act hignores ih

/-- Asking for another value leaves this one alone, if computing the other does. -/
theorem uses_once {slot : Slot W β} {compute : Task W β} (hset : ∀ cell, once.Ignores (slot.set cell))
    (hcompute : once.Uses compute) : once.Uses (slot.once compute) := by
  refine .act (fun w => hset _ w) fun w => ?_
  cases slot.get w with
  | full value => exact .done
  | empty | busy => exact uses_bind hcompute fun value => .act (hset _) fun _ => .done

/-- A step of a task that asks leaves the value alone, or begins to compute it. -/
theorem Uses.step {task : Task W β} {seen : Log} (h : once.Uses task)
    (hstep : task.step? seen w = some (reported, w', left)) :
    (once.slot.get w' = once.slot.get w ∧ once.count w' = once.count w ∧ once.Uses left) ∨
      (once.slot.get w = .empty ∧ once.slot.get w' = .busy ∧ once.count w' = once.count w ∧
        ∃ next, (∀ a, once.Uses (next a)) ∧ left = once.compute >>= once.slot.fill next) := by
  cases h with
  | done => cases hstep
  | report rest =>
    cases hstep
    exact .inl ⟨rfl, rfl, rest⟩
  | observe rest =>
    cases hstep
    exact .inl ⟨rfl, rfl, rest seen⟩
  | act hignores rest =>
    obtain ⟨-, -, rfl, rfl⟩ := step_act.mp hstep
    exact .inl ⟨(hignores w).1, (hignores w).2, rest w⟩
  | @ask next rest =>
    rw [get, Slot.once_bind] at hstep
    obtain ⟨hready, -, rfl, rfl⟩ := step_act.mp hstep
    cases hcell : once.slot.get w with
    | empty => exact .inr ⟨rfl, once.get_set .., once.count_set .., next, rest, rfl⟩
    | busy =>
      rw [hcell] at hready
      cases hready
    | full value => exact .inl ⟨once.get_set .., once.count_set .., rest value⟩

-- ---------------------------------------------------------------------------
-- Stages
-- ---------------------------------------------------------------------------

variable {W ε κ α β : Type} {once : Once W α}

def Users (once : Once W α) (holder : Option Nat) (pool : Pool W κ β) : Prop :=
  ∀ who kind task, some who ≠ holder → pool.calls[who]? = some (kind, task) → once.Uses task

/-- The call `who` found the value not asked for and claimed it; since then it has done `moments`. -/
structure Claims (once : Once W α) (who : Nat) (past : List (Moment W ε)) (claim : Moment W ε)
    (moments : List (Moment W ε)) : Prop where
  own : claim :: moments <:+ momentsOf who past
  empty : once.slot.get claim.world = .empty
  busy : once.slot.get claim.after = .busy

/-- One call claimed the value, computed it in `moments` and filled the cell, one right after the other. -/
structure Computes (once : Once W α) (past : List (Moment W ε)) (claim : Moment W ε)
    (moments : List (Moment W ε)) (filling : Moment W ε) (value : α) : Prop where
  own : ∃ who, claim :: (moments ++ [filling]) <:+: momentsOf who past
  empty : once.slot.get claim.world = .empty
  busy : once.slot.get claim.after = .busy
  acts : Acts once.compute moments (.done value)
  held : once.slot.get filling.world = .busy
  full : once.slot.get filling.after = .full value

/-- Where the value is: it was not asked for, `holder` is computing it, or it was computed. -/
inductive Stage (once : Once W α) (past : List (Moment W ε)) (pool : Pool W κ β) : Prop
  | idle (cell : once.slot.get pool.world = .empty) (count : once.count pool.world = 0)
      (users : once.Users none pool)
  | computing (cell : once.slot.get pool.world = .busy) (count : once.count pool.world + n ≤ 1)
      (users : once.Users (some holder) pool)
      (held : pool.calls[holder]? = some (kind, left >>= once.slot.fill next))
      (next : ∀ a, once.Uses (next a)) (acts : Acts once.compute moments left)
      (claims : once.Claims holder past claim moments) (spends : Spends once.count n left)
  | computed (cell : once.slot.get pool.world = .full value) (count : once.count pool.world ≤ 1)
      (users : once.Users none pool) (computes : once.Computes past claim moments filling value)

theorem Claims.other {moments : List (Moment W ε)} (h : once.Claims who past claim moments)
    (hother : moment.actor ≠ .call who) : once.Claims who (past ++ [moment]) claim moments where
  own := by
    rw [momentsOf_snoc_of_ne hother]
    exact h.own
  empty := h.empty
  busy := h.busy

theorem Claims.snoc {moments : List (Moment W ε)} (h : once.Claims who past claim moments)
    (hactor : moment.actor = .call who) :
    once.Claims who (past ++ [moment]) claim (moments ++ [moment]) where
  own := by
    obtain ⟨before, hbefore⟩ := h.own
    rw [momentsOf_snoc_of hactor, ← hbefore]
    exact ⟨before, by simp⟩
  empty := h.empty
  busy := h.busy

theorem Claims.fill {moments : List (Moment W ε)} (h : once.Claims who past claim moments)
    (hactor : filling.actor = .call who) (hacts : Acts once.compute moments (.done value))
    (hheld : once.slot.get filling.world = .busy) (hfull : once.slot.get filling.after = .full value) :
    once.Computes (past ++ [filling]) claim moments filling value :=
  ⟨⟨who, (h.snoc hactor).own.isInfix⟩, h.empty, h.busy, hacts, hheld, hfull⟩

theorem Computes.later {moments : List (Moment W ε)} (h : once.Computes past claim moments filling value)
    (moment : Moment W ε) : once.Computes (past ++ [moment]) claim moments filling value :=
  have ⟨who, hown⟩ := h.own
  { h with own := ⟨who, hown.trans (prefix_momentsOf who past [moment]).isInfix⟩ }

theorem Computes.within {moments : List (Moment W ε)} (h : once.Computes past claim moments filling value) :
    moments.Sublist past := by
  obtain ⟨who, hown⟩ := h.own
  have hinner : moments.Sublist (claim :: (moments ++ [filling])) :=
    (List.sublist_append_left ..).trans (List.sublist_cons_self ..)
  exact hinner.trans (hown.sublist.trans (momentsOf_sublist who past))

theorem Users.set {pool : Pool W κ β} {calls : List (κ × Task W β)} (h : once.Users holder pool)
    (hcalls : pool.calls = calls) (huses : some who ≠ holder' → once.Uses left)
    (hother : ∀ other, some other ≠ holder' → other ≠ who → some other ≠ holder) :
    once.Users holder' ⟨log, world, calls.set who (kind, left)⟩ := by
  intro other kind' task hne hcall
  by_cases hwho : who = other
  · subst hwho
    rw [List.getElem?_set] at hcall
    simp only [↓reduceIte] at hcall
    split at hcall
    · cases hcall
      exact huses hne
    · cases hcall
  · rw [List.getElem?_set_ne hwho, ← hcalls] at hcall
    exact h other kind' task (hother other hne (Ne.symm hwho)) hcall

theorem Users.call {pool : Pool W κ β} {task : Task W β} (h : once.Users holder pool)
    (huses : once.Uses task) :
    once.Users holder { pool with calls := pool.calls ++ [(kind, task)] } := by
  intro other kind' task' hne hcall
  rw [List.getElem?_append] at hcall
  split at hcall
  · exact h other kind' task' hne hcall
  · rw [List.getElem?_singleton] at hcall
    split at hcall
    · cases hcall
      exact huses
    · cases hcall

theorem Stage.call {pool : Pool W κ β} {past : List (Moment W ε)} {task : Task W β}
    (h : once.Stage past pool) (huses : once.Uses task) :
    once.Stage past { pool with calls := pool.calls ++ [(kind, task)] } := by
  cases h with
  | idle cell count users => exact .idle cell count (users.call huses)
  | @computing n holder kind' left after moments claim cell count users held next acts claims spends =>
    have hheld : (pool.calls ++ [(kind, task)])[holder]? = some (kind', left >>= once.slot.fill after) := by
      rw [List.getElem?_append_left (List.getElem?_eq_some_iff.mp held).1, held]
    exact .computing cell count (users.call huses) hheld next acts claims spends
  | computed cell count users computes => exact .computed cell count (users.call huses) computes

theorem Stage.outside {pool : Pool W κ β} {past : List (Moment W ε)} {moment : Moment W ε}
    (h : once.Stage past pool) (hcell : once.slot.get world = once.slot.get pool.world)
    (hcount : once.count world = once.count pool.world) (hactor : moment.actor = .outside cause) :
    once.Stage (past ++ [moment]) { pool with world } := by
  cases h with
  | idle cell count users => exact .idle (hcell.trans cell) (hcount.trans count) users
  | computing cell count users held next acts claims spends =>
    exact .computing (hcell.trans cell) (hcount ▸ count) users held next acts
      (claims.other (by simp [hactor])) spends
  | computed cell count users computes =>
    exact .computed (hcell.trans cell) (hcount ▸ count) users (computes.later moment)

/-- A step of a call takes the value from one stage to the same or the next. -/
theorem Stage.advance {pool : Pool W κ β} {past : List (Moment W ε)} (h : once.Stage past pool)
    (hcall : pool.calls[who]? = some (kind, task))
    (hstep : task.step? pool.log.entries pool.world = some (reported, world, left)) :
    once.Stage (past ++ [⟨.call who, pool.log.entries, pool.world, reported, world⟩])
        ⟨pool.log ++ reported.map (who, ·), world, pool.calls.set who (kind, left)⟩ ∧
      (once.slot.get pool.world).Before (once.slot.get world) := by
  have hlt : who < pool.calls.length := (List.getElem?_eq_some_iff.mp hcall).1
  cases h with
  | idle cell count users =>
    rcases (users who _ _ nofun hcall).step hstep with
      ⟨hcell, hcount, huses⟩ | ⟨-, hbusy, hcount, next, hnext, rfl⟩
    · rw [hcell]
      exact ⟨.idle (hcell.trans cell) (hcount.trans count) (users.set rfl (fun _ => huses) nofun), .same⟩
    · rw [cell, hbusy]
      have hcount : once.count world + 1 ≤ 1 := by omega
      have hclaims : once.Claims who _ ⟨.call who, pool.log.entries, pool.world, reported, world⟩ [] :=
        ⟨⟨momentsOf who past, (momentsOf_snoc_of rfl past).symm⟩, cell, hbusy⟩
      exact ⟨.computing hbusy hcount (users.set rfl (fun hne => absurd rfl hne) nofun)
        (List.getElem?_set_self hlt) hnext .here hclaims once.spends, .claimed⟩
  | @computing n holder kind' residue next moments claim cell count users held hnext acts claims spends =>
    -- The holder goes on computing, or fills the cell; any other call finds the value claimed.
    by_cases hwho : who = holder
    · subst hwho
      rw [held, Option.some.injEq, Prod.mk.injEq] at hcall
      obtain ⟨rfl, rfl⟩ := hcall
      rcases step_bind hstep with ⟨value, rfl, hfill⟩ | ⟨mid, hmid, rfl⟩
      · obtain ⟨-, -, rfl, rfl⟩ := step_act.mp hfill
        rw [cell, once.get_set]
        exact ⟨.computed (once.get_set ..) (by rw [once.count_set]; omega)
          (users.set rfl (fun _ => hnext value) fun other _ hne => by simpa using hne)
          (claims.fill rfl acts cell (once.get_set ..)), .filled⟩
      · have hcell := Task.Keeps.view_eq (acts.each once.keeps) hmid
        obtain ⟨m, hspends, hcount⟩ := spends.step hmid
        rw [hcell]
        exact ⟨.computing (hcell.trans cell) (hcount.trans count)
          (users.set rfl (fun hne => absurd rfl hne) fun other hne _ => hne)
          (List.getElem?_set_self hlt) hnext (acts.snoc hmid) (claims.snoc rfl) hspends, .same⟩
    · have huses := users who _ _ (by simpa using hwho) hcall
      rcases huses.step hstep with ⟨hcell, hcount, huses⟩ | ⟨hempty, -⟩
      · have hheld : (pool.calls.set who (kind, left))[holder]? =
            some (kind', residue >>= once.slot.fill next) := by
          rw [List.getElem?_set_ne hwho, held]
        rw [hcell]
        exact ⟨.computing (hcell.trans cell) (hcount ▸ count)
          (users.set rfl (fun _ => huses) fun other hne _ => hne) hheld hnext acts
          (claims.other (by simpa using hwho)) spends, .same⟩
      · rw [cell] at hempty
        cases hempty
  | computed cell count users computes =>
    rcases (users who _ _ nofun hcall).step hstep with ⟨hcell, hcount, huses⟩ | ⟨hempty, -⟩
    · rw [hcell]
      exact ⟨.computed (hcell.trans cell) (hcount ▸ count) (users.set rfl (fun _ => huses) nofun)
        (computes.later _), .same⟩
    · rw [cell] at hempty
      cases hempty

-- ---------------------------------------------------------------------------
-- Whole histories
-- ---------------------------------------------------------------------------

structure Fits (once : Once W α) (begins : κ → Task W β) (outside : ε → W → W → Prop)
    (start : Pool W κ β) : Prop where
  calls : start.calls = []
  empty : once.slot.get start.world = .empty
  count : once.count start.world = 0
  uses : ∀ kind, once.Uses (begins kind)
  outside : ∀ {cause w w'}, outside cause w w' →
    once.slot.get w' = once.slot.get w ∧ once.count w' = once.count w

variable {begins : κ → Task W β} {outside : ε → W → W → Prop} {start pool : Pool W κ β}
  {past : List (Moment W ε)}

theorem stage_of_history (h : History begins outside start past pool)
    (hfits : once.Fits begins outside start) : once.Stage past pool := by
  induction h with
  | start =>
    refine .idle hfits.empty hfits.count fun who kind task _ hcall => ?_
    rw [hfits.calls] at hcall
    cases hcall
  | call _ kind ih => exact ih.call (hfits.uses kind)
  | advance _ hcall hstep ih => exact (ih.advance hcall hstep).1
  | outside _ hchange ih => exact ih.outside (hfits.outside hchange).1 (hfits.outside hchange).2 rfl

theorem cells_of_history (h : History begins outside start past pool)
    (hfits : once.Fits begins outside start) :
    ∀ moment ∈ past, (once.slot.get moment.world).Before (once.slot.get moment.after) ∧
      (once.slot.get moment.after).Before (once.slot.get pool.world) := by
  induction h with
  | start => simp
  | call _ _ ih => exact ih
  | advance h hcall hstep ih =>
    have hbefore := ((stage_of_history h hfits).advance hcall hstep).2
    refine List.forall_mem_append.mpr ⟨fun moment hmem => ?_, List.forall_mem_singleton.mpr ⟨hbefore, .same⟩⟩
    exact ⟨(ih moment hmem).1, (ih moment hmem).2.trans hbefore⟩
  | outside _ hchange ih =>
    have hcell := (hfits.outside hchange).1
    refine List.forall_mem_append.mpr
      ⟨fun moment hmem => ?_, List.forall_mem_singleton.mpr ⟨hcell ▸ .same, .same⟩⟩
    exact ⟨(ih moment hmem).1, hcell ▸ (ih moment hmem).2⟩

theorem Stage.count_le (h : once.Stage past pool) : once.count pool.world ≤ 1 := by
  cases h with
  | idle _ count => omega
  | computing _ count => omega
  | computed _ count => exact count

theorem Stage.computed_of_full (h : once.Stage past pool) (hfull : once.slot.get pool.world = .full value) :
    ∃ claim moments filling, once.Computes past claim moments filling value := by
  cases h with
  | idle cell | computing cell =>
    rw [cell] at hfull
    cases hfull
  | computed cell _ _ computes =>
    rw [cell] at hfull
    cases hfull
    exact ⟨_, _, _, computes⟩

/-- A call that asked for the value got the one that is there. -/
theorem acts_get (once : Once W α) {moments : List (Moment W ε)} (h : Acts once.get moments (.done value))
    (hcells : ∀ moment ∈ moments, (once.slot.get moment.world).Before (once.slot.get moment.after) ∧
      (once.slot.get moment.after).Before cell) : cell = .full value := by
  obtain ⟨moment, rest, rfl, -, hafter, h⟩ := Task.acts_act h
  cases hcell : once.slot.get moment.world with
  | full found =>
    rw [hcell] at h
    obtain ⟨rfl, rfl⟩ := Task.acts_done h
    obtain ⟨hfirst, hlast⟩ := hcells moment List.mem_cons_self
    rw [hcell] at hfirst
    exact (hfirst.trans hlast).of_full
  | empty | busy =>
    rw [hcell] at h
    obtain ⟨found, _, last, rfl, -, h⟩ := Task.acts_bind h
    obtain ⟨_, filling, ending, rfl, hfilling, h⟩ := Task.acts_bind h
    obtain ⟨rfl, rfl⟩ := Task.acts_done h
    obtain ⟨filled, rfl, -, hfilled⟩ := Task.acts_modify hfilling
    have hlast := (hcells filled (by simp)).2
    rw [hfilled, once.get_set] at hlast
    exact hlast.of_full

-- ---------------------------------------------------------------------------
-- Calls that wait
-- ---------------------------------------------------------------------------

theorem step_bind_isSome {task : Task W β} {f : β → Task W γ} {seen : Log} (h : (task.step? seen w).isSome) :
    ((task >>= f).step? seen w).isSome := by
  cases task with
  | done a => cases h
  | report | observe => rfl
  | act ready effect next =>
    obtain ⟨⟨reported, w', left⟩, hstep⟩ := Option.isSome_iff_exists.mp h
    obtain ⟨hready, rfl, rfl, rfl⟩ := step_act.mp hstep
    exact Option.isSome_iff_exists.mpr ⟨_, step_act.mpr ⟨hready, rfl, rfl, rfl⟩⟩

/-- While the value is being computed, the call that does so can go on. -/
theorem Stage.holder_goes (h : once.Stage past pool) (hbusy : once.slot.get pool.world = .busy)
    (hcompute : Goes calm once.compute) (hcalm : calm pool.world) :
    ∃ (who : Nat) (kind : κ) (task : Task W β), pool.calls[who]? = some (kind, task) ∧
      (task.step? pool.log.entries pool.world).isSome := by
  cases h with
  | idle cell | computed cell =>
    rw [cell] at hbusy
    cases hbusy
  | @computing _ holder kind left next _ _ _ _ _ held _ acts =>
    refine ⟨holder, kind, _, held, ?_⟩
    by_cases hdone : ∃ value, left = .done value
    · obtain ⟨value, rfl⟩ := hdone
      exact Option.isSome_iff_exists.mpr ⟨_, step_act.mpr ⟨rfl, rfl, rfl, rfl⟩⟩
    · exact step_bind_isSome
        (Goes.step_isSome (acts.each hcompute) hcalm (fun value heq => hdone ⟨value, heq⟩) _)

end Once

end TsBuild.Bundle
