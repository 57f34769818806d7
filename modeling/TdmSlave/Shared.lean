import Mathlib.Algebra.BigOperators.Group.Finset
import TdmSlave.Ownership
import TdmSlave.Protocol

/-!
# Instances of `tdm_slave` on several hardware threads

`current_buf_no` is a static of `commit_buffers`, so every instance of `tdm_slave` that a program
runs reads and writes the same byte, although each runs on its own hardware thread with its own
activation of `tdm_main_loop`, its own `in_s` and `out_s` and its own interrupt. `Shared k` is a
program with `k` such instances, whose steps interleave in any order.

Every statement of the loop reads `current_buf_no` at most once and touches nothing else that
another thread sees, so it is one step. `current_buf_no ^= 0b1` reads it and writes it, and is two:
a load into the thread, then the store of the flipped value it loaded (`Instance.loaded`). A step of
an instance leaves every other instance as it is (`Shared.step_other`). Seen through the selector it
reads, a step is a step of the program of one instance, or the load, which changes nothing the
instance reads (`Shared.step_view`, `Shared.step_load`). A run records each event with the instance
that made it (`eventsOf`). With one instance the split is invisible: the program has exactly the
traces of the program of one instance (`sharedRun_one_iff`).

Each instance, seen through the selector it reads, runs the program of one instance with only the
selector changed between its steps, so every invariant of that program that does not mention the
selector, over its state and its own events, holds of every instance of every interleaving
(`view_foldl_invariant`): the callback protocol, for one. Two things that do mention it hold of
every interleaving.

* An instance keeps its working and safe buffers apart at every point outside `commit_buffers` when
  no other instance stores `current_buf_no` while it is inside `commit_buffers`, apart from
  between its own load and store (`working_ne_safe_of_quiet`), and the first `process` of each of
  its calls is then handed zeros (`first_process_receives_zero_of_quiet`). One such store is enough
  for the interrupt to write the buffer that `process` is handed, in the frame loop
  (`working_eq_safe_of_foreign_store`) and in the configuration block alike, whose masked
  interrupts do not hold off other threads (`first_process_receives_capture`).
* When no store falls between the load and the store of another instance, no flip is lost: outside
  `commit_buffers`, `current_buf_no` is the parity of the calls of `commit_buffers` that all the
  instances together have made (`sharedBufNo_eq_commitCount`). Two overlapping flips lose one
  (`overlapping_flips_lose_one`).
-/

namespace TdmSlave

/-- The statement `current_buf_no ^= 0b1` of `commit_buffers`. -/
def Pc.isFlip : Pc → Bool
  | .commit _ .flip => true
  | _ => false

/-- The points of `commit_buffers` after its first statement and before its last has run: there
the pointers set so far are those of the selector it read (`PointerInv`). -/
def Pc.inWindow : Pc → Bool
  | .commit _ .workingOut | .commit _ .flip | .commit _ .safeIn | .commit _ .safeOut => true
  | _ => false

/-- Whether the action is a statement of the loop. -/
def TdmAction.isMain : TdmAction → Bool
  | .main _ => true
  | .isr _ | .call _ => false

/-! ## Instances and their interleavings -/

/-- One instance of `tdm_slave` on its hardware thread. -/
structure Instance where
  /-- The loop arguments of its current call. -/
  args : TdmSlaveLoopArgs
  /-- Its activation of `tdm_main_loop`. -/
  state : TdmState
  /-- The value of `current_buf_no` that its flip has loaded and not yet stored. -/
  loaded : Option BufNo

/-- The program of one instance that `x` runs when `current_buf_no` is `b`: its statements read the
value it has loaded, if any, and `b` otherwise. -/
def Instance.view (x : Instance) (b : BufNo) : TdmSystem := ⟨x.args, x.loaded.getD b, x.state⟩

/-- The next statement of the loop is the load of the flip. -/
def Instance.loadsNext (x : Instance) : Bool := x.state.pc.isFlip && x.loaded.isNone

/-- The next statement of the loop is the store of the flip. -/
def Instance.storesNext (x : Instance) : Bool := x.state.pc.isFlip && x.loaded.isSome

/-- The instance is inside `commit_buffers`, has still to read `current_buf_no`, and holds no
loaded value. -/
def Instance.exposed (x : Instance) : Bool := x.state.pc.inWindow && x.loaded.isNone

/-- A program with `k` instances of `tdm_slave` and the static `current_buf_no` they share. -/
structure Shared (k : Nat) where
  /-- `current_buf_no`. -/
  bufNo : BufNo
  /-- The instances. -/
  inst : Fin k → Instance

/-- The program at its start: every instance at the entry of its first call of `tdm_slave`, and
`static uint8_t current_buf_no = 0`. -/
def Shared.boot {k : Nat} (args : Fin k → TdmSlaveLoopArgs) (masked : Fin k → Bool) : Shared k :=
  ⟨.zero, fun i => ⟨args i, .entry (masked i), none⟩⟩

/-- Instance `i` runs its interrupt or a new call of `tdm_slave`, which touch neither
`current_buf_no` nor the value it has loaded. -/
def Shared.stepAside {k : Nat} (i : Fin k) (act : TdmAction) (σ : Shared k) :
    Option (Shared k × List TdmEvent) :=
  let x := σ.inst i
  ((x.view σ.bufNo).step act).map fun r =>
    (⟨σ.bufNo, Function.update σ.inst i ⟨r.1.args, r.1.state, x.loaded⟩⟩, r.2)

/-- One step of instance `i`, when it can happen. At its flip the first statement step loads
`current_buf_no` and the second stores the flipped value it loaded; every other statement runs with
the selector it reads. -/
def Shared.step {k : Nat} (i : Fin k) : TdmAction → Shared k → Option (Shared k × List TdmEvent)
  | .main inp, σ =>
    let x := σ.inst i
    if x.loadsNext then
      some (⟨σ.bufNo, Function.update σ.inst i { x with loaded := some σ.bufNo }⟩, [])
    else
      (mainStep x.args inp (x.loaded.getD σ.bufNo) x.state).map fun r =>
        (⟨r.2.1, Function.update σ.inst i ⟨x.args, r.1, none⟩⟩, r.2.2)
  | .isr portIn, σ => σ.stepAside i (.isr portIn)
  | .call a, σ => σ.stepAside i (.call a)

/-- The action is instance `i`'s store of `current_buf_no`. -/
def Shared.stores {k : Nat} (σ : Shared k) (i : Fin k) (act : TdmAction) : Bool :=
  act.isMain && (σ.inst i).storesNext

/-- The interleaved runs from `σ` in which every step meets `ok`, with their events in order, each
with the instance whose step made it. -/
inductive SharedRun {k : Nat} (ok : Shared k → Fin k → TdmAction → Bool) :
    Shared k → List (Fin k × TdmEvent) → Shared k → Prop
  | refl (σ : Shared k) : SharedRun ok σ [] σ
  | tail {σ τ υ : Shared k} {tr : List (Fin k × TdmEvent)} {es : List TdmEvent} (i : Fin k)
      (act : TdmAction) :
      SharedRun ok σ tr τ → ok τ i act = true → τ.step i act = some (υ, es) →
        SharedRun ok σ (tr ++ es.map (Prod.mk i)) υ

/-- An interleaved run from a list of steps, when every step meets `ok` and can happen. -/
def sharedRun {k : Nat} (ok : Shared k → Fin k → TdmAction → Bool) :
    List (Fin k × TdmAction) → Shared k → Option (Shared k × List (Fin k × TdmEvent))
  | [], σ => some (σ, [])
  | (i, act) :: acts, σ =>
    if ok σ i act then
      (σ.step i act).bind fun r =>
        (sharedRun ok acts r.1).map fun q => (q.1, r.2.map (Prod.mk i) ++ q.2)
    else none

/-- The events of instance `i`, in order. -/
def eventsOf {k : Nat} (tr : List (Fin k × TdmEvent)) (i : Fin k) : List TdmEvent :=
  tr.filterMap fun e => if e.1 = i then some e.2 else none

/-- A step of instance `j` adds its events to those of `j` and none to those of another. -/
theorem eventsOf_append_map {k : Nat} (tr : List (Fin k × TdmEvent)) (es : List TdmEvent)
    (i j : Fin k) :
    eventsOf (tr ++ es.map (Prod.mk j)) i = eventsOf tr i ++ if j = i then es else [] := by
  rw [eventsOf, List.filterMap_append]
  congr 1
  split
  · subst j
    induction es with
    | nil => rfl
    | cons e es ih => simp [ih]
  · induction es with
    | nil => rfl
    | cons e es ih => simp_all

section Runs

variable {k : Nat} {ok : Shared k → Fin k → TdmAction → Bool}

/-- A run that one step starts. -/
theorem SharedRun.head {σ τ υ : Shared k} {es : List TdmEvent} {tr : List (Fin k × TdmEvent)}
    (i : Fin k) (act : TdmAction) (hok : ok σ i act = true) (h : σ.step i act = some (τ, es))
    (hr : SharedRun ok τ tr υ) : SharedRun ok σ (es.map (Prod.mk i) ++ tr) υ := by
  induction hr with
  | refl => simpa using SharedRun.tail i act (.refl σ) hok h
  | tail j act' _ hok' h' ih => simpa [List.append_assoc] using SharedRun.tail j act' ih hok' h'

/-- `sharedRun` computes runs. -/
theorem sharedRun_sound : ∀ (acts : List (Fin k × TdmAction)) (σ τ : Shared k)
    (tr : List (Fin k × TdmEvent)), sharedRun ok acts σ = some (τ, tr) → SharedRun ok σ tr τ
  | [], σ, τ, tr, h => by
    simp only [sharedRun, Option.some.injEq, Prod.mk.injEq] at h
    obtain ⟨rfl, rfl⟩ := h
    exact .refl σ
  | (i, act) :: acts, σ, τ, tr, h => by
    simp only [sharedRun] at h
    split at h
    · simp only [Option.bind_eq_some, Option.map_eq_some', Prod.mk.injEq] at h
      obtain ⟨⟨σ', es⟩, hs, ⟨τ', tr'⟩, hr, rfl, rfl⟩ := h
      exact SharedRun.head i act ‹_› hs (sharedRun_sound acts σ' τ' tr' hr)
    · cases h

/-- A computed run that succeeds is a run. -/
theorem sharedRun_getD {acts : List (Fin k × TdmAction)} {σ : Shared k}
    (h : (sharedRun ok acts σ).isSome = true) (d : Shared k × List (Fin k × TdmEvent)) :
    SharedRun ok σ ((sharedRun ok acts σ).getD d).2 ((sharedRun ok acts σ).getD d).1 := by
  obtain ⟨r, hr⟩ := Option.isSome_iff_exists.1 h
  simp only [hr, Option.getD_some]
  exact sharedRun_sound acts σ r.1 r.2 hr

/-- A property of the program and of a fold over the events so far, of all the instances, that
holds at the start of a run and that every step meeting `ok` keeps, holds at its end. -/
theorem SharedRun.foldl_invariant {M : Type} (f : M → TdmEvent → M)
    {P : Shared k → M → Prop}
    (hstep : ∀ σ i act σ' es m, P σ m → ok σ i act = true → σ.step i act = some (σ', es) →
      P σ' (es.foldl f m))
    {σ τ : Shared k} {tr : List (Fin k × TdmEvent)} (hr : SharedRun ok σ tr τ) {m : M}
    (h0 : P σ m) : P τ ((tr.map Prod.snd).foldl f m) := by
  induction hr with
  | refl => exact h0
  | tail i act _ hok h ih =>
    simpa [List.foldl_append, List.map_map, Function.comp_def] using hstep _ i act _ _ _ ih hok h

/-- A property that holds at the start of a run and that every step meeting `ok` keeps holds at
its end. -/
theorem SharedRun.invariant {P : Shared k → Prop}
    (hstep : ∀ σ i act σ' es, P σ → ok σ i act = true → σ.step i act = some (σ', es) → P σ')
    {σ τ : Shared k} {tr : List (Fin k × TdmEvent)} (hr : SharedRun ok σ tr τ) (h0 : P σ) :
    P τ := by
  induction hr with
  | refl => exact h0
  | tail i act _ hok h ih => exact hstep _ i act _ _ ih hok h

end Runs

/-! ## What a step does -/

/-- Only the flip of `commit_buffers` writes `current_buf_no`. -/
theorem mainStep_bufNo {a : TdmSlaveLoopArgs} {inp : TdmInput} {b b' : BufNo} {s s' : TdmState}
    {es : List TdmEvent} (h : mainStep a inp b s = some (s', b', es)) (hf : s.pc.isFlip = false) :
    b' = b := by
  cases hpc : s.pc
  case done => simp [mainStep, hpc] at h
  case commit site k =>
    rw [hpc] at hf
    simp only [mainStep, hpc, Option.some.injEq, Prod.mk.injEq] at h
    obtain ⟨-, rfl, -⟩ := h
    cases k
    case flip => simp [Pc.isFlip] at hf
    all_goals rfl
  all_goals
    simp only [mainStep, hpc] at h
    try split at h
    all_goals
      cases h
      rfl

/-- Every loaded value belongs to a flip that has still to store it. -/
def LoadedAtFlip {k : Nat} (σ : Shared k) : Prop :=
  ∀ i, (σ.inst i).loaded.isSome = true → (σ.inst i).state.pc.isFlip = true

section Steps

variable {k : Nat} {σ σ' : Shared k} {i : Fin k} {act : TdmAction} {es : List TdmEvent}

/-- What one step of instance `i` does: the load of its flip, which records `current_buf_no` and
changes nothing else; or a step of the program of one instance on its view, of which only a
statement of the loop writes `current_buf_no` and ends a loaded flip. -/
theorem Shared.step_cases (h : σ.step i act = some (σ', es)) :
    ((σ.inst i).loadsNext = true ∧ act.isMain = true ∧ es = [] ∧
        σ' = ⟨σ.bufNo, Function.update σ.inst i { σ.inst i with loaded := some σ.bufNo }⟩) ∨
      (∃ τ, ¬((σ.inst i).loadsNext = true ∧ act.isMain = true) ∧
        ((σ.inst i).view σ.bufNo).step act = some (τ, es) ∧
        σ' = ⟨if act.isMain then τ.bufNo else σ.bufNo, Function.update σ.inst i
          ⟨τ.args, τ.state, if act.isMain then none else (σ.inst i).loaded⟩⟩) := by
  cases act with
  | main inp =>
    simp only [Shared.step] at h
    split at h
    · obtain ⟨rfl, rfl⟩ := Prod.mk.inj (Option.some.inj h)
      exact .inl ⟨‹_›, rfl, rfl, rfl⟩
    · obtain ⟨r, hr, he⟩ := Option.map_eq_some'.1 h
      obtain ⟨rfl, rfl⟩ := Prod.mk.inj he
      refine .inr ⟨⟨(σ.inst i).args, r.2.1, r.1⟩, by simp [*], ?_, rfl⟩
      simp [TdmSystem.step, Instance.view, hr]
  | isr portIn =>
    simp only [Shared.step, Shared.stepAside] at h
    obtain ⟨⟨τ, es'⟩, hr, he⟩ := Option.map_eq_some'.1 h
    obtain ⟨rfl, rfl⟩ := Prod.mk.inj he
    exact .inr ⟨τ, by simp [TdmAction.isMain], hr, rfl⟩
  | call a =>
    simp only [Shared.step, Shared.stepAside] at h
    obtain ⟨⟨τ, es'⟩, hr, he⟩ := Option.map_eq_some'.1 h
    obtain ⟨rfl, rfl⟩ := Prod.mk.inj he
    exact .inr ⟨τ, by simp [TdmAction.isMain], hr, rfl⟩

/-- A step of instance `i` leaves every other instance as it is. -/
theorem Shared.step_other (h : σ.step i act = some (σ', es)) {j : Fin k} (hj : j ≠ i) :
    σ'.inst j = σ.inst j := by
  rcases Shared.step_cases h with ⟨-, -, -, rfl⟩ | ⟨τ, -, -, rfl⟩ <;>
    exact Function.update_noteq hj _ _

/-- The load of a flip changes nothing that the instance reads, and emits nothing. -/
theorem Shared.step_load (h : σ.step i act = some (σ', es))
    (hl : (σ.inst i).loadsNext = true ∧ act.isMain = true) :
    σ'.bufNo = σ.bufNo ∧ (σ'.inst i).view σ'.bufNo = (σ.inst i).view σ.bufNo ∧
      (σ'.inst i).state = (σ.inst i).state ∧ es = [] := by
  rcases Shared.step_cases h with ⟨hl', -, rfl, rfl⟩ | ⟨τ, hn, -⟩
  · simp only [Instance.loadsNext, Bool.and_eq_true, Option.isNone_iff_eq_none] at hl'
    simp [Instance.view, hl'.2]
  · exact absurd hl hn

/-- Every other step of instance `i` is a step of the program of one instance on its view. -/
theorem Shared.step_view (h : σ.step i act = some (σ', es))
    (hl : ¬((σ.inst i).loadsNext = true ∧ act.isMain = true)) :
    ((σ.inst i).view σ.bufNo).step act = some ((σ'.inst i).view σ'.bufNo, es) := by
  rcases Shared.step_cases h with ⟨hl', hm, -⟩ | ⟨τ, -, hs, rfl⟩
  · exact absurd ⟨hl', hm⟩ hl
  · rw [hs]
    cases act with
    | main inp => simp [Instance.view, TdmAction.isMain]
    | isr portIn =>
      rcases TdmSystem.step_cases hs with ⟨_, _, _, he, -⟩ | ⟨_, -, -, rfl, -⟩ | ⟨_, he, -⟩
      · cases he
      · simp [Instance.view, TdmAction.isMain]
      · cases he
    | call a =>
      rcases TdmSystem.step_cases hs with ⟨_, _, _, he, -⟩ | ⟨_, he, -⟩ | ⟨_, -, -, rfl, -⟩
      · cases he
      · cases he
      · simp [Instance.view, TdmAction.isMain]

/-- Every step keeps each loaded value at a flip that has still to store it. -/
theorem loadedAtFlip_step (hf : LoadedAtFlip σ) (h : σ.step i act = some (σ', es)) :
    LoadedAtFlip σ' := by
  intro j hj
  by_cases hji : j = i
  · subst hji
    rcases Shared.step_cases h with ⟨hl, -, -, rfl⟩ | ⟨τ, -, hs, rfl⟩
    · simp only [Instance.loadsNext, Bool.and_eq_true] at hl
      simpa using hl.1
    · cases act with
      | main inp => simp [TdmAction.isMain] at hj
      | isr portIn =>
        rcases TdmSystem.step_cases hs with ⟨_, _, _, he, -⟩ | ⟨_, -, -, rfl, -⟩ | ⟨_, he, -⟩
        · cases he
        · simpa [TdmAction.isMain, Instance.view] using hf j (by simpa [TdmAction.isMain] using hj)
        · cases he
      | call a =>
        rcases TdmSystem.step_cases hs with ⟨_, _, _, he, -⟩ | ⟨_, he, -⟩ | ⟨_, -, hd, rfl, -⟩
        · cases he
        · cases he
        · simp only [Instance.view] at hd
          have := hf j (by simpa [TdmAction.isMain] using hj)
          simp [hd, Pc.isFlip] at this
  · rw [Shared.step_other h hji] at hj ⊢
    exact hf j hj

/-- Outside its stores, a step leaves `current_buf_no` as it is. -/
theorem Shared.step_bufNo (hf : LoadedAtFlip σ) (h : σ.step i act = some (σ', es))
    (hs : σ.stores i act = false) : σ'.bufNo = σ.bufNo := by
  rcases Shared.step_cases h with ⟨-, -, -, rfl⟩ | ⟨τ, hl, hst, rfl⟩
  · rfl
  · cases act with
    | main inp =>
      have hflip : (σ.inst i).state.pc.isFlip = false := by
        simp only [Shared.stores, TdmAction.isMain, Instance.storesNext, Bool.true_and] at hs
        simp only [Instance.loadsNext, TdmAction.isMain, and_true] at hl
        cases hp : (σ.inst i).state.pc.isFlip <;> cases hq : (σ.inst i).loaded <;> simp_all
      have hnone : (σ.inst i).loaded = none := by
        cases hq : (σ.inst i).loaded
        · rfl
        · simpa [hflip] using hf i (by simp [hq])
      simp only [TdmSystem.step, Instance.view, hnone, Option.getD_none, Option.map_eq_some'] at hst
      obtain ⟨⟨s', b', es'⟩, hm, he⟩ := hst
      obtain ⟨rfl, rfl⟩ := Prod.mk.inj he
      exact mainStep_bufNo hm hflip
    | isr portIn => rfl
    | call a => rfl

/-- Conversely, a step of the program of one instance on the view of instance `i`, other than the
load of a flip, is a step of instance `i`. -/
theorem Shared.step_of_view {υ : TdmSystem}
    (hl : ¬((σ.inst i).loadsNext = true ∧ act.isMain = true))
    (h : ((σ.inst i).view σ.bufNo).step act = some (υ, es)) :
    ∃ σ', σ.step i act = some (σ', es) ∧ (σ'.inst i).view σ'.bufNo = υ ∧
      (σ'.inst i).loaded = if act.isMain then none else (σ.inst i).loaded := by
  cases act with
  | main inp =>
    simp only [TdmAction.isMain, and_true, Bool.not_eq_true] at hl
    obtain ⟨r, hm, he⟩ := Option.map_eq_some'.1 h
    obtain ⟨rfl, rfl⟩ := Prod.mk.inj he
    simp only [Instance.view] at hm
    exact ⟨⟨r.2.1, Function.update σ.inst i ⟨(σ.inst i).args, r.1, none⟩⟩,
      by simp only [Shared.step, hl, if_false, Bool.false_eq_true]; rw [hm]; rfl,
      by simp [Instance.view], by simp [TdmAction.isMain]⟩
  | isr portIn =>
    refine ⟨_, by simp only [Shared.step, Shared.stepAside]; rw [h]; rfl, ?_, by simp [TdmAction.isMain]⟩
    rcases TdmSystem.step_cases h with ⟨_, _, _, he, -⟩ | ⟨_, -, -, rfl, -⟩ | ⟨_, he, -⟩
    · cases he
    · simp [Instance.view]
    · cases he
  | call a =>
    refine ⟨_, by simp only [Shared.step, Shared.stepAside]; rw [h]; rfl, ?_, by simp [TdmAction.isMain]⟩
    rcases TdmSystem.step_cases h with ⟨_, _, _, he, -⟩ | ⟨_, he, -⟩ | ⟨_, -, -, rfl, -⟩
    · cases he
    · cases he
    · simp [Instance.view]

end Steps

/-! ## One instance

With one instance the load and the store of a flip are two steps with nothing between them that
another thread could see, so splitting the flip changes nothing: the program with one instance has
exactly the traces of the program of one instance (`sharedRun_one_iff`). -/

/-- Every interleaving of one instance is a run of the program of one instance on its view, with
the same events; the load of a flip is a step that changes nothing. -/
theorem SharedRun.run_view {ok : Shared 1 → Fin 1 → TdmAction → Bool} {σ₀ σ : Shared 1}
    {tr : List (Fin 1 × TdmEvent)} (hr : SharedRun ok σ₀ tr σ) :
    Run ((σ₀.inst 0).view σ₀.bufNo) (tr.map Prod.snd) ((σ.inst 0).view σ.bufNo) := by
  induction hr with
  | refl => exact .refl _
  | @tail τ _ tr' es i act _ _ h ih =>
    obtain rfl : i = 0 := Subsingleton.elim i 0
    have hes : (tr' ++ es.map (Prod.mk 0)).map Prod.snd = tr'.map Prod.snd ++ es := by
      simp [List.map_map, Function.comp_def]
    rw [hes]
    by_cases hl : (τ.inst 0).loadsNext = true ∧ act.isMain = true
    · obtain ⟨-, hv, -, rfl⟩ := Shared.step_load h hl
      rw [hv, List.append_nil]
      exact ih
    · exact .tail act ih (Shared.step_view h hl)

/-- Every run of the program of one instance is an interleaving of one instance that holds no
loaded value at its end, with a flip as its load followed by its store. -/
theorem Run.sharedRun_one {τ₀ τ : TdmSystem} {tr : List TdmEvent} (hr : Run τ₀ tr τ)
    (σ₀ : Shared 1) (h0 : (σ₀.inst 0).view σ₀.bufNo = τ₀) (hn : (σ₀.inst 0).loaded = none) :
    ∃ σ, SharedRun (fun _ _ _ => true) σ₀ (tr.map (Prod.mk 0)) σ ∧
      (σ.inst 0).view σ.bufNo = τ ∧ (σ.inst 0).loaded = none := by
  induction hr with
  | refl => exact ⟨σ₀, .refl _, h0, hn⟩
  | tail act _ h ih =>
    obtain ⟨σ, hr, rfl, hn⟩ := ih
    by_cases hl : (σ.inst 0).loadsNext = true ∧ act.isMain = true
    · obtain ⟨inp, rfl⟩ : ∃ inp, act = .main inp := by
        cases act <;> simp_all [TdmAction.isMain]
      have h1 : σ.step 0 (.main inp) = some (⟨σ.bufNo, Function.update σ.inst 0
          { σ.inst 0 with loaded := some σ.bufNo }⟩, []) := by
        simp [Shared.step, hl.1]
      obtain ⟨σ', h2, hv, hn'⟩ := Shared.step_of_view (σ := ⟨σ.bufNo, Function.update σ.inst 0
          { σ.inst 0 with loaded := some σ.bufNo }⟩) (i := 0) (by simp [Instance.loadsNext])
        (by simpa [Instance.view, hn] using h)
      refine ⟨σ', ?_, hv, by simpa [TdmAction.isMain] using hn'⟩
      simpa using (hr.tail 0 _ rfl h1).tail 0 _ rfl h2
    · obtain ⟨σ', h', hv, hn'⟩ := Shared.step_of_view hl h
      refine ⟨σ', ?_, hv, by rw [hn', hn]; split <;> rfl⟩
      simpa using hr.tail 0 act rfl h'


/-- With one instance, the program whose flips are a load and a store has exactly the traces of
the program of one instance. -/
theorem sharedRun_one_iff {a : TdmSlaveLoopArgs} {masked : Bool} {tr : List TdmEvent} :
    (∃ σ, SharedRun (fun _ _ _ => true) (Shared.boot (fun _ : Fin 1 => a) (fun _ => masked))
      (tr.map (Prod.mk 0)) σ) ↔ ∃ τ, Run (TdmSystem.boot a masked) tr τ :=
  ⟨fun ⟨_, hr⟩ => ⟨_, by simpa [List.map_map, Function.comp_def] using hr.run_view⟩,
    fun ⟨_, hr⟩ =>
      let ⟨σ, hs, _⟩ := hr.sharedRun_one (Shared.boot (fun _ => a) (fun _ => masked)) rfl rfl
      ⟨σ, hs⟩⟩

/-! ## Buffer ownership across instances -/

/-- Outside `commit_buffers` the pointer invariant keeps the working and the safe buffers apart. -/
theorem pointerInv_apart {b : BufNo} {s : TdmState} (hi : PointerInv b s)
    (hc : s.pc.inCommit = false) :
    s.workingInBuffer ≠ s.safeInBuffer ∧ s.workingOutBuffer ≠ s.safeOutBuffer := by
  unfold PointerInv at hi
  cases hpc : s.pc <;> rw [hpc] at hi hc <;> first | exact hi | simp [Pc.inCommit] at hc

/-- Outside the window of `commit_buffers` the pointer invariant does not read the selector. -/
theorem pointerInv_of_not_inWindow {b b' : BufNo} {s : TdmState} (h : s.pc.inWindow = false)
    (hi : PointerInv b s) : PointerInv b' s := by
  unfold PointerInv at hi ⊢
  cases hpc : s.pc
  case commit site k =>
    rw [hpc] at hi h
    cases k
    case workingIn => exact hi
    all_goals simp [Pc.inWindow] at h
  all_goals
    rw [hpc] at hi
    exact hi

/-- No instance other than `j` stores `current_buf_no` while `j` is exposed. -/
def quietFor {k : Nat} (j : Fin k) (σ : Shared k) (i : Fin k) (act : TdmAction) : Bool :=
  !(σ.stores i act && i != j && (σ.inst j).exposed)

/-- The invariant of ownership for instance `j`: every loaded value at a flip, and `PointerInv`
for `j` with the selector it reads. -/
def QuietInv {k : Nat} (j : Fin k) (σ : Shared k) : Prop :=
  LoadedAtFlip σ ∧ PointerInv ((σ.inst j).view σ.bufNo).bufNo (σ.inst j).state

/-- Every step that no other instance's store makes unsafe for `j` keeps `QuietInv j`: `j`'s own
steps are steps of the program of one instance, and another instance's store comes when `j` holds
a loaded value or is outside the window. -/
theorem quietInv_step {k : Nat} {σ σ' : Shared k} {i j : Fin k} {act : TdmAction}
    {es : List TdmEvent} (hi : QuietInv j σ) (hq : quietFor j σ i act = true)
    (h : σ.step i act = some (σ', es)) : QuietInv j σ' := by
  obtain ⟨hf, hp⟩ := hi
  refine ⟨loadedAtFlip_step hf h, ?_⟩
  by_cases hji : j = i
  · subst hji
    by_cases hl : (σ.inst j).loadsNext = true ∧ act.isMain = true
    · obtain ⟨-, hv, hs, -⟩ := Shared.step_load h hl
      rw [hv, hs]
      exact hp
    · exact pointerInv_step hp (Shared.step_view h hl)
  · rw [Shared.step_other h hji]
    cases hs : σ.stores i act
    · rw [Shared.step_bufNo hf h hs]
      exact hp
    · cases hl : (σ.inst j).loaded with
      | some v => simpa [Instance.view, hl] using hp
      | none =>
        have hw : (σ.inst j).state.pc.inWindow = false := by
          simpa [quietFor, hs, Ne.symm hji, Instance.exposed, hl] using hq
        exact pointerInv_of_not_inWindow hw (by simpa [Instance.view, hl] using hp)

/-- In every interleaving of `k` instances of `tdm_slave` from the start of the program, over any
number of restarts and calls, in which no other instance stores `current_buf_no` while instance `j`
is inside `commit_buffers` (between its own load and store apart), at every point where `j` is
outside `commit_buffers` its working and safe buffers of each direction are different elements,
so `j`'s `tdm_isr` leaves the `receive_samples` buffer of `j`'s `process` as it is. -/
theorem working_ne_safe_of_quiet {k : Nat} (args : Fin k → TdmSlaveLoopArgs)
    (masked : Fin k → Bool) (j : Fin k) {tr : List (Fin k × TdmEvent)} {σ : Shared k}
    (hr : SharedRun (quietFor j) (Shared.boot args masked) tr σ)
    (hc : (σ.inst j).state.pc.inCommit = false) :
    (σ.inst j).state.workingInBuffer ≠ (σ.inst j).state.safeInBuffer ∧
      (σ.inst j).state.workingOutBuffer ≠ (σ.inst j).state.safeOutBuffer ∧
      ∀ portIn, (tdmIsr (σ.inst j).args portIn (σ.inst j).state).inS (σ.inst j).state.safeInBuffer =
        (σ.inst j).state.inS (σ.inst j).state.safeInBuffer := by
  have hi : QuietInv j σ := hr.invariant (fun _ _ _ _ _ hi hq h => quietInv_step hi hq h)
    ⟨fun _ h => by simp [Shared.boot] at h, by simp [PointerInv, Shared.boot, TdmState.entry]⟩
  obtain ⟨hin, hout⟩ := pointerInv_apart hi.2 hc
  exact ⟨hin, hout, fun portIn => tdmIsr_inS_of_ne _ portIn hin⟩

/-- Two instances of the test's configuration at the start of the program. -/
def twoTest : Shared 2 := Shared.boot (fun _ => testArgs) (fun _ => true)

/-- `n` statements of instance `i`, each with the quiet input. -/
def quietSteps (i : Fin 2) (n : Nat) : List (Fin 2 × TdmAction) := List.replicate n (i, .main .quiet)

/-- Instance 0 up to its first frame's `process`, all of instance 1's configuration block, then
instance 0 up to its second frame's `process`: instance 1's flip comes while instance 0 waits. -/
def quietRun : Shared 2 × List (Fin 2 × TdmEvent) :=
  (sharedRun (quietFor 0) (quietSteps 0 13 ++ quietSteps 1 13 ++ quietSteps 0 11) twoTest).getD
    (twoTest, [])

set_option maxRecDepth 20000 in
/-- That run is an interleaving in which no other instance stores inside instance 0's window. -/
theorem quietRun_sharedRun :
    SharedRun (quietFor 0) (Shared.boot (fun _ => testArgs) (fun _ => true)) quietRun.2
      quietRun.1 :=
  sharedRun_sound (quietSteps 0 13 ++ quietSteps 1 13 ++ quietSteps 0 11) _ _ _ rfl

set_option maxRecDepth 20000 in
/-- In that run instance 0 reaches its second `process` with its buffers apart. -/
theorem working_ne_safe_of_quiet_interleaved :
    SharedRun (quietFor 0) (Shared.boot (fun _ => testArgs) (fun _ => true)) quietRun.2 quietRun.1 ∧
      (quietRun.1.inst 0).state.pc.inCommit = false ∧
      ((quietRun.1.inst 0).state.workingInBuffer ≠ (quietRun.1.inst 0).state.safeInBuffer ∧
        (quietRun.1.inst 0).state.workingOutBuffer ≠ (quietRun.1.inst 0).state.safeOutBuffer ∧
        ∀ portIn, (tdmIsr (quietRun.1.inst 0).args portIn (quietRun.1.inst 0).state).inS
            (quietRun.1.inst 0).state.safeInBuffer =
          (quietRun.1.inst 0).state.inS (quietRun.1.inst 0).state.safeInBuffer) :=
  have hc : (quietRun.1.inst 0).state.pc.inCommit = false := rfl
  ⟨quietRun_sharedRun, hc, working_ne_safe_of_quiet _ _ 0 quietRun_sharedRun hc⟩

set_option maxRecDepth 20000 in
/-- One store inside the window is enough. Instance 0 runs the frame loop's first
`working_in_buffer = ..` (with `current_buf_no = 1`), instance 1 then runs its configuration block's
`commit_buffers` up to its store (`current_buf_no = 0`), and instance 0 goes on: its
`commit_buffers` ends with the working and the safe input buffer both `in_s.buffer[1]`, which its
`process` is then handed while its interrupt writes it. -/
theorem working_eq_safe_of_foreign_store :
    ∃ σ tr, SharedRun (fun _ _ _ => true) twoTest tr σ ∧ (σ.inst 0).state.pc = .process ∧
      (σ.inst 0).state.workingInBuffer = (σ.inst 0).state.safeInBuffer :=
  ⟨_, _, sharedRun_sound (quietSteps 0 15 ++ quietSteps 1 6 ++ quietSteps 0 9) _ _ _ rfl,
    by decide, by decide⟩

/-- The first `process` of instance `j`'s calls is handed zeros when no other instance stores inside
`j`'s window: `QuietInv j`, with `FirstInv` of `j` for the monitor over `j`'s own events. -/
theorem firstReceive_accepts_of_quiet {k : Nat} (args : Fin k → TdmSlaveLoopArgs)
    (masked : Fin k → Bool) (j : Fin k) {tr : List (Fin k × TdmEvent)} {σ : Shared k}
    (hr : SharedRun (quietFor j) (Shared.boot args masked) tr σ) :
    ((eventsOf tr j).foldl FirstReceive.observe ⟨true, false⟩).violated = false := by
  suffices h : QuietInv j σ ∧
      ((eventsOf tr j).foldl FirstReceive.observe ⟨true, false⟩).violated = false ∧
      FirstInv ((eventsOf tr j).foldl FirstReceive.observe ⟨true, false⟩).first (σ.inst j).state
    from h.2.1
  induction hr with
  | refl =>
    exact ⟨⟨fun _ h => by simp [Shared.boot] at h, by simp [PointerInv, Shared.boot,
      TdmState.entry]⟩, rfl, rfl, rfl, fun _ => rfl⟩
  | @tail τ τ' tr es i act _ hq h ih =>
    obtain ⟨hqi, hv, hf⟩ := ih
    refine ⟨quietInv_step hqi hq h, ?_⟩
    rw [eventsOf_append_map]
    by_cases hij : i = j
    · subst hij
      rw [if_pos rfl, List.foldl_append]
      by_cases hl : (τ.inst i).loadsNext = true ∧ act.isMain = true
      · obtain ⟨-, -, hs, rfl⟩ := Shared.step_load h hl
        rw [hs]
        exact ⟨hv, hf⟩
      · generalize (eventsOf tr i).foldl FirstReceive.observe ⟨true, false⟩ = m at hv hf
        obtain ⟨first, violated⟩ := m
        cases hv
        exact firstInv_step hqi.2 hf (Shared.step_view h hl)
    · rw [if_neg hij, List.append_nil, Shared.step_other h (Ne.symm hij)]
      exact ⟨hv, hf⟩

/-- In every interleaving of `k` instances of `tdm_slave` from the start of the program in which no
other instance stores `current_buf_no` while instance `j` is inside `commit_buffers` (between its
own load and store apart), the first `process` of each of `j`'s calls is handed a receive buffer of
zeros, as for a single instance. -/
theorem first_process_receives_zero_of_quiet {k : Nat} (args : Fin k → TdmSlaveLoopArgs)
    (masked : Fin k → Bool) (j : Fin k) {tr : List (Fin k × TdmEvent)} {σ : Shared k}
    (hr : SharedRun (quietFor j) (Shared.boot args masked) tr σ) {done mid post : List TdmEvent}
    {recv send : TdmSampleBuffer} (he : eventsOf tr j = done ++ mid ++ .process recv send :: post)
    (hd : done = [] ∨ done.getLast? = some .ret)
    (hm : ∀ e ∈ mid, e ≠ .ret ∧ ∀ r s, e ≠ .process r s) : recv = .zero :=
  FirstReceive.recv_eq_zero (he ▸ firstReceive_accepts_of_quiet args masked j hr) hd hm

/-- Two input lines and no output line: instance 1's configuration block, then instance 0 up to
its first `process`, with its interrupt run once before it. -/
def quietNoOutputsRun : Shared 2 × List (Fin 2 × TdmEvent) :=
  (sharedRun (quietFor 0) (quietSteps 1 8 ++ quietSteps 0 10 ++ [(0, .isr fun _ => 0xFFFFFFFF#32)] ++
    quietSteps 0 4) (Shared.boot (fun _ => twoInputs) (fun _ => true))).getD
      (Shared.boot (fun _ => twoInputs) (fun _ => true), [])

set_option maxRecDepth 20000 in
/-- There instance 1's flip comes before instance 0's `commit_buffers`, and instance 0's first
`process` is handed zeros though its interrupt has captured. -/
theorem first_process_receives_zero_of_quiet_no_outputs :
    SharedRun (quietFor 0) (Shared.boot (fun _ => twoInputs) (fun _ => true)) quietNoOutputsRun.2
        quietNoOutputsRun.1 ∧
      eventsOf quietNoOutputsRun.2 0 = [] ++ noOutputsPrefix ++ [.process .zero .zero] ∧
      (([] : List TdmEvent) = [] ∨ ([] : List TdmEvent).getLast? = some .ret) ∧
      (∀ e ∈ noOutputsPrefix, e ≠ .ret ∧ ∀ r s, e ≠ .process r s) ∧
      TdmSampleBuffer.zero = .zero :=
  have hr : SharedRun (quietFor 0) (Shared.boot (fun _ => twoInputs) (fun _ => true))
      quietNoOutputsRun.2 quietNoOutputsRun.1 := sharedRun_getD (by decide) _
  have he : eventsOf quietNoOutputsRun.2 0 = [] ++ noOutputsPrefix ++ [.process .zero .zero] := by
    decide
  have hm : ∀ e ∈ noOutputsPrefix, e ≠ .ret ∧ ∀ r s, e ≠ .process r s := by
    simp [noOutputsPrefix]
  ⟨hr, he, .inl rfl, hm, first_process_receives_zero_of_quiet _ _ 0 hr he (.inl rfl) hm⟩

/-- Two input lines and no output line: instance 0's configuration block up to its
`commit_buffers`, all of instance 1's, then instance 0 up to its first `process`, with its interrupt
run once before it. -/
def foreignConfigRun : Shared 2 × List (Fin 2 × TdmEvent) :=
  (sharedRun (fun _ _ _ => true) (quietSteps 0 3 ++ quietSteps 1 8 ++ quietSteps 0 7 ++
    [(0, .isr fun _ => 0xFFFFFFFF#32)] ++ quietSteps 0 4)
    (Shared.boot (fun _ => twoInputs) (fun _ => true))).getD
      (Shared.boot (fun _ => twoInputs) (fun _ => true), [])

set_option maxRecDepth 20000 in
/-- `interrupt_mask_all` masks the interrupts of its own thread only, so it does not keep another
instance's flip out of the configuration block's `commit_buffers`. With two input lines and no
output line, instance 1's whole `commit_buffers` runs inside instance 0's, which then ends with its
working and safe input buffer the same; its interrupt captures into that buffer, and its first
`process` is handed the capture, not zeros, after the same events as in a run of one instance
(`first_process_receives_zero_no_outputs`). -/
theorem first_process_receives_capture :
    ∃ σ tr recv send, SharedRun (fun _ _ _ => true)
        (Shared.boot (fun _ : Fin 2 => twoInputs) (fun _ => true)) tr σ ∧
      eventsOf tr 0 = [] ++ noOutputsPrefix ++ [.process recv send] ∧
      (∀ e ∈ noOutputsPrefix, e ≠ .ret ∧ ∀ r s, e ≠ .process r s) ∧ recv ≠ .zero :=
  ⟨foreignConfigRun.1, foreignConfigRun.2,
    (TdmSampleBuffer.zero.set 0 0 (in16 0#32 0xFFFFFFFF#32).1).set 0 1 (in16 0#32 0xFFFFFFFF#32).2,
    .zero, sharedRun_getD (by decide) _, by decide, by simp [noOutputsPrefix], by decide⟩

/-! ## What each instance runs -/

/-- Instances interfere only through `current_buf_no`. In every interleaving of `k` instances from
the start of the program, each instance, seen through the selector it reads, has run its own program
of one instance on its own events, with only the selector changed between its steps. So a property
of the program of one instance and of a fold over its events, that holds at the entry of
`tdm_slave`, that each of its steps keeps and that does not depend on `current_buf_no`, holds of
every instance and its events at every point of every interleaving. -/
theorem view_foldl_invariant {k : Nat} {M : Type} (f : M → TdmEvent → M)
    {P : TdmSystem → M → Prop}
    (hstep : ∀ σ act σ' es m, P σ m → σ.step act = some (σ', es) → P σ' (es.foldl f m))
    (hsel : ∀ σ b m, P σ m → P { σ with bufNo := b } m) {ok : Shared k → Fin k → TdmAction → Bool}
    (args : Fin k → TdmSlaveLoopArgs) (masked : Fin k → Bool) {m : M}
    (h0 : ∀ i, P ⟨args i, .zero, .entry (masked i)⟩ m) {tr : List (Fin k × TdmEvent)}
    {σ : Shared k} (hr : SharedRun ok (Shared.boot args masked) tr σ) (i : Fin k) :
    P ((σ.inst i).view σ.bufNo) ((eventsOf tr i).foldl f m) := by
  induction hr with
  | refl => exact h0 i
  | @tail τ τ' tr es j act _ _ h ih =>
    rw [eventsOf_append_map]
    by_cases hji : j = i
    · subst hji
      rw [if_pos rfl, List.foldl_append]
      by_cases hl : (τ.inst j).loadsNext = true ∧ act.isMain = true
      · obtain ⟨-, hv, -, rfl⟩ := Shared.step_load h hl
        rw [hv]
        exact ih
      · exact hstep _ act _ _ _ ih (Shared.step_view h hl)
    · rw [if_neg hji, List.append_nil, Shared.step_other h (Ne.symm hji)]
      exact hsel _ ((τ.inst i).loaded.getD τ'.bufNo) _ ih

/-! ## The shared selector -/

/-- No store of `current_buf_no` while another instance holds a loaded value: the flips of two
instances never overlap. -/
def flipsApart {k : Nat} (σ : Shared k) (i : Fin k) (act : TdmAction) : Bool :=
  !σ.stores i act || decide (∀ j, j ≠ i → (σ.inst j).loaded.isNone = true)

/-- The calls of `commit_buffers` whose flip is still to come, over all instances. -/
def pendingFlips {k : Nat} (σ : Shared k) : Nat := ∑ i, flipPending (σ.inst i).state.pc

/-- The pending flips of all instances: those of `i` and those of the others. -/
theorem pendingFlips_eq {k : Nat} (σ : Shared k) (i : Fin k) :
    pendingFlips σ = flipPending (σ.inst i).state.pc +
      ∑ j ∈ Finset.univ.erase i, flipPending (σ.inst j).state.pc :=
  (Finset.add_sum_erase _ _ (Finset.mem_univ i)).symm

/-- Counting the calls of `commit_buffers` from `n + m` counts `m` more. -/
theorem foldl_countCommit_add (n m : Nat) :
    ∀ es : List TdmEvent, es.foldl countCommit (n + m) = es.foldl countCommit n + m
  | [] => rfl
  | e :: es => by
    have : countCommit (n + m) e = countCommit n e + m := by
      cases e
      case commitBuffers => exact Nat.add_right_comm n m 1
      all_goals rfl
    simp only [List.foldl_cons, this, foldl_countCommit_add _ m es]

/-- Outside `commit_buffers` no flip is pending. -/
theorem flipPending_of_inCommit_eq_false {p : Pc} (h : p.inCommit = false) : flipPending p = 0 := by
  cases p
  case commit => cases h
  all_goals rfl

/-- The invariant of the shared selector: every loaded value at a flip and equal to
`current_buf_no`, and `current_buf_no` the parity of the calls of `commit_buffers` counted so far
and of the flips still to come. -/
def SharedParity {k : Nat} (σ : Shared k) (n : Nat) : Prop :=
  LoadedAtFlip σ ∧ (∀ i, (σ.inst i).loaded.getD σ.bufNo = σ.bufNo) ∧
    σ.bufNo.toFin.val = (n + pendingFlips σ) % 2

/-- Every step whose store overlaps no other flip keeps `SharedParity` over the calls of
`commit_buffers` it makes: the acting instance runs the program of one instance with the shared
selector, which keeps `ParityInv`, and every other instance is left as it is. -/
theorem sharedParity_step {k : Nat} {σ σ' : Shared k} {i : Fin k} {act : TdmAction}
    {es : List TdmEvent} {n : Nat} (hi : SharedParity σ n) (hok : flipsApart σ i act = true)
    (h : σ.step i act = some (σ', es)) : SharedParity σ' (es.foldl countCommit n) := by
  obtain ⟨hf, hl, hp⟩ := hi
  have hrest : ∑ j ∈ Finset.univ.erase i, flipPending (σ'.inst j).state.pc =
      ∑ j ∈ Finset.univ.erase i, flipPending (σ.inst j).state.pc :=
    Finset.sum_congr rfl fun j hj => by rw [Shared.step_other h (Finset.ne_of_mem_erase hj)]
  have hothers : ∀ j, j ≠ i → (σ'.inst j).loaded.getD σ'.bufNo = σ'.bufNo := by
    intro j hj
    rw [Shared.step_other h hj]
    cases hs : σ.stores i act
    · rw [Shared.step_bufNo hf h hs]
      exact hl j
    · simp only [flipsApart, hs, Bool.not_true, Bool.false_or, decide_eq_true_eq] at hok
      rw [Option.isNone_iff_eq_none.1 (hok j hj)]
      rfl
  by_cases hld : (σ.inst i).loadsNext = true ∧ act.isMain = true
  · obtain ⟨hb, hv, hs, rfl⟩ := Shared.step_load h hld
    have hvi : (σ'.inst i).loaded.getD σ'.bufNo = σ'.bufNo :=
      (congrArg TdmSystem.bufNo hv).trans ((hl i).trans hb.symm)
    refine ⟨loadedAtFlip_step hf h, fun j => ?_, ?_⟩
    · by_cases hj : j = i
      · exact hj ▸ hvi
      · exact hothers j hj
    · rw [pendingFlips_eq σ' i, hrest, hs, hb]
      rw [pendingFlips_eq σ i] at hp
      exact hp
  · have hvi : (σ'.inst i).loaded.getD σ'.bufNo = σ'.bufNo := by
      rcases Shared.step_cases h with ⟨hl', hm, -⟩ | ⟨τ, -, -, rfl⟩
      · exact absurd ⟨hl', hm⟩ hld
      · cases act <;> simp [TdmAction.isMain, hl i]
    have hpar : ParityInv ((σ.inst i).view σ.bufNo)
        (n + ∑ j ∈ Finset.univ.erase i, flipPending (σ.inst j).state.pc) := by
      rw [pendingFlips_eq σ i] at hp
      show ((σ.inst i).loaded.getD σ.bufNo).toFin.val = _
      rw [hl i, hp, Nat.add_comm (flipPending _) _, ← Nat.add_assoc]
      rfl
    have h' := parityInv_step hpar (Shared.step_view h hld)
    refine ⟨loadedAtFlip_step hf h, fun j => ?_, ?_⟩
    · by_cases hj : j = i
      · exact hj ▸ hvi
      · exact hothers j hj
    · unfold ParityInv at h'
      simp only [Instance.view, hvi, foldl_countCommit_add] at h'
      rw [pendingFlips_eq σ' i, hrest, h', Nat.add_comm (flipPending _) _, ← Nat.add_assoc]

/-- In every interleaving of `k` instances of `tdm_slave` from the start of the program, over any
number of restarts and calls, in which no store of `current_buf_no` falls between the load and the
store of another instance's flip, when no instance is inside `commit_buffers` `current_buf_no` is
the parity of the calls of `commit_buffers` that all the instances together have made: no flip is
lost. -/
theorem sharedBufNo_eq_commitCount {k : Nat} (args : Fin k → TdmSlaveLoopArgs)
    (masked : Fin k → Bool) {tr : List (Fin k × TdmEvent)} {σ : Shared k}
    (hr : SharedRun flipsApart (Shared.boot args masked) tr σ)
    (hc : ∀ i, (σ.inst i).state.pc.inCommit = false) :
    σ.bufNo.toFin.val = commitCount (tr.map Prod.snd) % 2 := by
  have hb : pendingFlips (Shared.boot args masked) = 0 := Finset.sum_eq_zero fun _ _ => rfl
  have hi : SharedParity σ (commitCount (tr.map Prod.snd)) :=
    hr.foldl_invariant _ (fun _ _ _ _ _ _ hi hok h => sharedParity_step hi hok h)
      ⟨fun _ h => by simp [Shared.boot] at h, fun _ => rfl, by rw [hb]; rfl⟩
  have h0 : pendingFlips σ = 0 :=
    Finset.sum_eq_zero fun i _ => flipPending_of_inCommit_eq_false (hc i)
  simpa only [h0, Nat.add_zero] using hi.2.2

/-- Each instance up to its first frame's `process`, one after the other. -/
def apartRun : Shared 2 × List (Fin 2 × TdmEvent) :=
  (sharedRun flipsApart (quietSteps 0 13 ++ quietSteps 1 13) twoTest).getD (twoTest, [])

set_option maxRecDepth 20000 in
/-- After the two configuration blocks, two calls of `commit_buffers`, the selector is back at `0`. -/
theorem sharedBufNo_eq_commitCount_two_calls :
    SharedRun flipsApart (Shared.boot (fun _ => testArgs) (fun _ => true)) apartRun.2 apartRun.1 ∧
      (∀ i, (apartRun.1.inst i).state.pc.inCommit = false) ∧
      apartRun.1.bufNo.toFin.val = commitCount (apartRun.2.map Prod.snd) % 2 :=
  have h : SharedRun flipsApart (Shared.boot (fun _ => testArgs) (fun _ => true)) apartRun.2
      apartRun.1 :=
    sharedRun_sound (quietSteps 0 13 ++ quietSteps 1 13) _ _ _ rfl
  have hc : ∀ i, (apartRun.1.inst i).state.pc.inCommit = false := by decide
  ⟨h, hc, sharedBufNo_eq_commitCount _ _ h hc⟩

set_option maxRecDepth 20000 in
/-- Two overlapping flips lose one: both instances load `0` and both store `1`, so after their two
calls of `commit_buffers` the selector is `1`. -/
theorem overlapping_flips_lose_one :
    ∃ σ tr, SharedRun (fun _ _ _ => true) twoTest tr σ ∧
      (∀ i, (σ.inst i).state.pc.inCommit = false) ∧
      σ.bufNo.toFin.val ≠ commitCount (tr.map Prod.snd) % 2 :=
  ⟨_, _, sharedRun_sound (quietSteps 0 4 ++ quietSteps 1 4 ++ quietSteps 0 1 ++ quietSteps 1 1 ++
      quietSteps 0 1 ++ quietSteps 1 1 ++ quietSteps 0 7 ++ quietSteps 1 7) _ _ _ rfl,
    by decide, by decide⟩

end TdmSlave
