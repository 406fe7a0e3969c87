import RoutePlan.Proofs.Compile.Calls
import RoutePlan.Proofs.Compile.Concurrent
import RoutePlan.Proofs.Compile.Moves
import RoutePlan.Proofs.Store.Identity
import Mathlib.Data.List.Infix

/-!
# The moments of a compilation

An attempt at compiling a route reads the routing, the steps, the overrides and the specs one after
another, and nothing holds the others off in between. So a version is put together from four moments
of its attempt, in this order (`World.inserted_readInOrder`). It need not be what the route compiles
to at any one moment: if the steps are changed after they have been read and an override is added
before those are, the version mixes the old steps with the new override
(`World.not_snapshot_mixedReads`). It is the snapshot of one moment if no change of the steps is
followed by one of the overrides or the specs, and none of the overrides by one of the specs
(`InputsInOrder`), above all if only one of the three is changed while the attempt goes on.
-/

namespace RoutePlan

/-! ## What an attempt has read -/

/-- What an attempt at compiling a route has read so far. -/
inductive AttemptMemory
  | nothing
  | routing (r : Routing)
  | steps (r : Routing) (steps : List RoutingStep)
  | overrides (r : Routing) (steps : List RoutingStep) (overrides : List Override)
  | specs (r : Routing) (steps : List RoutingStep) (overrides : List Override)
    (specs : List DataSpec)

namespace AttemptMemory

/-- What has been read compiles to `c`. The specs may be missing if none are asked for. -/
inductive Compiles : AttemptMemory → Routing → Compilation → Prop
  | withoutSpecs {r : Routing} {steps : List RoutingStep} {overrides : List Override}
    (h : ResolvedStep.specIds (r.resolve steps overrides) = []) :
    Compiles (.overrides r steps overrides) r (.ofSteps r (r.resolve steps overrides) [])
  | withSpecs {r : Routing} {steps : List RoutingStep} {overrides : List Override}
    {specs : List DataSpec} :
    Compiles (.specs r steps overrides specs) r (.ofSteps r (r.resolve steps overrides) specs)

end AttemptMemory

/-- An attempt reads the routing with its code, the steps of this routing, the overrides of these
steps and the specs that they name, and inserts what all of this compiles to. -/
def attemptProtocol (code : String) : Protocol AttemptMemory where
  allows g
    | .findRouting code' => code' = code
    | .listSteps routingId => ∃ r, g = .routing r ∧ routingId = r.id
    | .listOverrides f => ∃ r steps, g = .steps r steps ∧ f = .forRouting r steps
    | .findDataSpecs ids => ∃ r steps overrides, g = .overrides r steps overrides ∧
      ids = ResolvedStep.specIds (r.resolve steps overrides)
    | .latestVersion _ => True
    | .insertVersion draft expected => ∃ r c compiledAt, g.Compiles r c ∧
      draft = c.draft r.id expected compiledAt
    | _ => False
  next
    | _, .findRouting _, .ok (some r) => .routing r
    | _, .findRouting _, _ => .nothing
    | .routing r, .listSteps _, .ok steps => .steps r steps
    | .steps r steps, .listOverrides _, .ok overrides => .overrides r steps overrides
    | .overrides r steps overrides, .findDataSpecs _, .ok specs => .specs r steps overrides specs
    | g, _, _ => g

namespace Service

variable {supply : Supply} {code : String} {g : AttemptMemory}

/-- Settling the version inserts only what the inputs that were read compile to. -/
theorem follows_settleVersion_attempt {r : Routing} {c : Compilation} (h : g.Compiles r c) :
    Follows supply (attemptProtocol code) (fun _ _ => True) (fun _ _ => True)
      (settleVersion r c) g := by
  have hlatest : ∀ s : MemoryStore, (attemptProtocol code).next g (.latestVersion r.id)
      (.ok (s.latestVersion r.id)) = g := fun s => by cases g <;> rfl
  refine follows_bind.2 (follows_read (·.latestVersion r.id) (fun _ => rfl) trivial fun s => ?_)
  rw [hlatest]
  split
  · trivial
  · refine follows_bind.2 (follows_now.2 fun t => follows_call.2
      ⟨⟨r, c, _, h, rfl⟩, fun u => ?_⟩)
    split <;> trivial

/-- An attempt reads its inputs in order and inserts only what they compile to. -/
theorem follows_compileOnce_attempt :
    Follows supply (attemptProtocol code) (fun _ _ => True) (fun _ _ => True)
      (compileOnce code) g := by
  refine follows_bind.2 (follows_bind.2 (follows_read (·.findRouting code) (fun _ => rfl) rfl
    fun s => follows_orRefuse.2 ?_))
  cases s.findRouting code with
  | none => trivial
  | some r =>
    refine follows_bind.2 (follows_bind.2 (follows_read (·.listSteps r.id) (fun _ => rfl)
      ⟨r, rfl, rfl⟩ fun t => follows_ite (fun _ => trivial) fun _ => ?_))
    generalize t.listSteps r.id = steps
    refine follows_bind.2 (follows_read (·.listOverrides (.forRouting r steps)) (fun _ => rfl)
      ⟨r, steps, rfl, rfl⟩ fun u => ?_)
    generalize u.listOverrides (.forRouting r steps) = overrides
    refine follows_bind.2 (follows_ite (fun hids => ?_) fun _ => ?_)
    · exact follows_pure.2 (follows_pure.2
        (follows_settleVersion_attempt (.withoutSpecs (List.isEmpty_iff.1 hids))))
    · exact follows_read (·.findDataSpecs (ResolvedStep.specIds (r.resolve steps overrides)))
        (fun _ => rfl) ⟨r, steps, overrides, rfl, rfl⟩ fun v =>
          follows_pure.2 (follows_settleVersion_attempt .withSpecs)

/-- Every attempt of a compile call follows the protocol, from the beginning. -/
theorem follows_compileWithin_attempt (attempts left : Nat) :
    Follows supply (attemptProtocol code) (fun _ _ => True) (fun _ _ => True)
      (compileWithin code attempts left) g := by
  induction left generalizing g with
  | zero => exact follows_throw.2 trivial
  | succ left ih =>
    exact follows_tryCatch.2 (follows_compileOnce_attempt.imp (fun _ _ => id) fun e g _ =>
      follows_ite (fun _ => ih) fun _ => follows_throw.2 trivial)

end Service

namespace World

variable {ι α : Type} [DecidableEq ι] {supply : Supply} {w : World ι α} {i : ι}
  {moves start : List (Move ι)}

/-! ## The moments at which it has read -/

/-- The attempt that the call `i` is making at the end of `moves` began after `start`: there the
call read the routing, and it has not done so again. -/
structure BeganAt (supply : Supply) (w : World ι α) (i : ι) (start moves : List (Move ι)) :
    Prop where
  reads : ∃ code next, (w.run supply start).programs i = .call (.findRouting code) next
  since : start ++ [.advance i] <+: moves
  last : ∀ later, start ++ [.advance i] <+: later → later ++ [.advance i] <+: moves →
    ∀ code next, (w.run supply later).programs i ≠ .call (.findRouting code) next

/-- An attempt began before the present moment. -/
theorem BeganAt.isPrefix (h : w.BeganAt supply i start moves) : start <+: moves :=
  (List.prefix_append ..).trans h.since

/-- The attempt goes on until the call reads the routing again. -/
theorem BeganAt.concat (h : w.BeganAt supply i start moves) {m : Move ι}
    (hm : m = .advance i → ∀ code next,
      (w.run supply moves).programs i ≠ .call (.findRouting code) next) :
    w.BeganAt supply i start (moves ++ [m]) where
  reads := h.reads
  since := h.since.trans (List.prefix_append ..)
  last later hlater hmoves := by
    rcases List.prefix_concat_iff.1 hmoves with heq | hearlier
    · obtain ⟨rfl, hlast⟩ := List.append_inj' heq rfl
      exact hm (List.singleton_inj.1 hlast).symm
    · exact h.last later hlater hearlier

/-- An attempt begins when the routing is read. -/
theorem beganAt_concat {code : String} {next : (Call.findRouting code).Answer → Program α}
    (h : (w.run supply moves).programs i = .call (.findRouting code) next) :
    w.BeganAt supply i moves (moves ++ [.advance i]) where
  reads := ⟨code, next, h⟩
  since := List.prefix_rfl
  last later hlater hmoves := by
    have := hlater.length_le
    have := hmoves.length_le
    simp at *
    omega

/-- What an attempt remembers was read at moments of the attempt, one after another. -/
inductive HasReadFrom (supply : Supply) (code : String) (w : World ι α) (i : ι)
    (moves : List (Move ι)) : AttemptMemory → Prop
  | nothing : HasReadFrom supply code w i moves .nothing
  | routing {start : List (Move ι)} {r : Routing} (hbegan : w.BeganAt supply i start moves)
    (hr : (w.run supply start).state.store.findRouting code = some r) :
    HasReadFrom supply code w i moves (.routing r)
  | steps {start m₂ : List (Move ι)} {r : Routing} (hbegan : w.BeganAt supply i start moves)
    (hr : (w.run supply start).state.store.findRouting code = some r) (h₂ : start <+: m₂)
    (hmoves : m₂ <+: moves) :
    HasReadFrom supply code w i moves (.steps r ((w.run supply m₂).state.store.listSteps r.id))
  | overrides {start m₂ m₃ : List (Move ι)} {r : Routing} {steps : List RoutingStep}
    (hbegan : w.BeganAt supply i start moves)
    (hr : (w.run supply start).state.store.findRouting code = some r) (h₂ : start <+: m₂)
    (h₃ : m₂ <+: m₃) (hmoves : m₃ <+: moves)
    (hsteps : (w.run supply m₂).state.store.listSteps r.id = steps) :
    HasReadFrom supply code w i moves
      (.overrides r steps ((w.run supply m₃).state.store.listOverrides (.forRouting r steps)))
  | specs {start m₂ m₃ m₄ : List (Move ι)} {r : Routing} {steps : List RoutingStep}
    {overrides : List Override} (hbegan : w.BeganAt supply i start moves)
    (hr : (w.run supply start).state.store.findRouting code = some r) (h₂ : start <+: m₂)
    (h₃ : m₂ <+: m₃) (h₄ : m₃ <+: m₄) (hmoves : m₄ <+: moves)
    (hsteps : (w.run supply m₂).state.store.listSteps r.id = steps)
    (hoverrides : (w.run supply m₃).state.store.listOverrides (.forRouting r steps) = overrides) :
    HasReadFrom supply code w i moves (.specs r steps overrides
      ((w.run supply m₄).state.store.findDataSpecs
        (ResolvedStep.specIds (r.resolve steps overrides))))

namespace HasReadFrom

variable {code : String} {g : AttemptMemory}

/-- Whatever moves, what has been read was read before, unless a new attempt begins. -/
theorem concat (h : HasReadFrom supply code w i moves g) {m : Move ι}
    (hm : m = .advance i → ∀ code next,
      (w.run supply moves).programs i ≠ .call (.findRouting code) next) :
    HasReadFrom supply code w i (moves ++ [m]) g := by
  have hlonger {l : List (Move ι)} (hl : l <+: moves) : l <+: moves ++ [m] :=
    hl.trans (List.prefix_append ..)
  cases h with
  | nothing => exact .nothing
  | routing hbegan hr => exact .routing (hbegan.concat hm) hr
  | steps hbegan hr h₂ hmoves => exact .steps (hbegan.concat hm) hr h₂ (hlonger hmoves)
  | overrides hbegan hr h₂ h₃ hmoves hsteps =>
    exact .overrides (hbegan.concat hm) hr h₂ h₃ (hlonger hmoves) hsteps
  | specs hbegan hr h₂ h₃ h₄ hmoves hsteps hoverrides =>
    exact .specs (hbegan.concat hm) hr h₂ h₃ h₄ (hlonger hmoves) hsteps hoverrides

/-- Each call of the attempt that is allowed reads at the present moment. -/
theorem call (h : HasReadFrom supply code w i moves g) {c : Call} {next : c.Answer → Program α}
    (hp : (w.run supply moves).programs i = .call c next)
    (hallows : (attemptProtocol code).allows g c) :
    HasReadFrom supply code w i (moves ++ [.advance i])
      ((attemptProtocol code).next g c
        (MemoryState.answer supply c (w.run supply moves).state).1) := by
  have hnow : moves <+: moves ++ [Move.advance i] := List.prefix_append ..
  have hgoes (hc : ∀ code, c ≠ .findRouting code) : Move.advance i = .advance i → ∀ code next,
      (w.run supply moves).programs i ≠ .call (.findRouting code) next := by
    rintro - code next heq
    rw [hp] at heq
    exact hc code (Program.call.inj heq).1
  cases c with
  | findRouting code' =>
    obtain rfl : code' = code := hallows
    simp only [MemoryState.answer]
    cases hr : (w.run supply moves).state.store.findRouting code' with
    | none => cases g <;> exact .nothing
    | some r => cases g <;> exact .routing (beganAt_concat hp) hr
  | listSteps routingId =>
    obtain ⟨r, rfl, rfl⟩ := hallows
    cases h with
    | routing hbegan hr =>
      exact .steps (hbegan.concat (hgoes fun _ => by simp)) hr hbegan.isPrefix hnow
  | listOverrides f =>
    obtain ⟨r, steps, rfl, rfl⟩ := hallows
    cases h with
    | steps hbegan hr h₂ hmoves =>
      exact .overrides (hbegan.concat (hgoes fun _ => by simp)) hr h₂ hmoves hnow rfl
  | findDataSpecs ids =>
    obtain ⟨r, steps, overrides, rfl, rfl⟩ := hallows
    cases h with
    | overrides hbegan hr h₂ h₃ hmoves hsteps =>
      exact .specs (hbegan.concat (hgoes fun _ => by simp)) hr h₂ h₃ hmoves hnow hsteps rfl
  | latestVersion routingId =>
    have := h.concat (hgoes fun _ => by simp)
    cases g <;> exact this
  | insertVersion draft expected =>
    have := h.concat (hgoes fun _ => by simp)
    cases g <;> exact this
  | _ => exact hallows.elim

end HasReadFrom

/-- `c` is what a route compiles to, where the steps, the overrides and the specs were each read at
some moment from `start` to `finish`, in this order. -/
def ReadInOrder (supply : Supply) (w : World ι α) (start finish : List (Move ι)) (r : Routing)
    (c : Compilation) : Prop :=
  ∃ m₂ m₃ m₄, start <+: m₂ ∧ m₂ <+: m₃ ∧ m₃ <+: m₄ ∧ m₄ <+: finish ∧
    c = .ofReads r ((w.run supply m₂).state.store.listSteps r.id)
      ((w.run supply m₃).state.store.listOverrides
        (.forRouting r ((w.run supply m₂).state.store.listSteps r.id)))
      (w.run supply m₄).state.store.findDataSpecs

/-- What has been read compiles to what was read in this order. -/
theorem HasReadFrom.readInOrder {code : String} {g : AttemptMemory} {r : Routing} {c : Compilation}
    (h : HasReadFrom supply code w i moves g) (hc : g.Compiles r c) :
    ∃ start, w.BeganAt supply i start moves ∧
      (w.run supply start).state.store.findRouting code = some r ∧
      w.ReadInOrder supply start moves r c := by
  cases hc with
  | withoutSpecs hids =>
    cases h with
    | @overrides start m₂ m₃ _ _ hbegan hr h₂ h₃ hmoves hsteps =>
      refine ⟨start, hbegan, hr, m₂, m₃, m₃, h₂, h₃, List.prefix_rfl, hmoves, ?_⟩
      rw [Compilation.ofReads, hsteps, hids, MemoryStore.findDataSpecs_nil]
  | withSpecs =>
    cases h with
    | @specs start m₂ m₃ m₄ _ _ _ hbegan hr h₂ h₃ h₄ hmoves hsteps hoverrides =>
      refine ⟨start, hbegan, hr, m₂, m₃, m₄, h₂, h₃, h₄, hmoves, ?_⟩
      rw [Compilation.ofReads, hsteps, hoverrides]

/-! ## Changes of the inputs -/

end World

/-- The tables that a compilation reads besides the routings, in the reverse of the order in which
it reads them. -/
inductive InputTable
  | specs
  | overrides
  | steps
  deriving DecidableEq

namespace InputTable

/-- The place of the table among them. -/
def rank : InputTable → Nat
  | specs => 0
  | overrides => 1
  | steps => 2

/-- Both stores have the same rows in the table. -/
def Same : InputTable → MemoryStore → MemoryStore → Prop
  | specs, s, t => t.dataSpecs = s.dataSpecs
  | overrides, s, t => t.overrides = s.overrides
  | steps, s, t => t.steps = s.steps

variable {k : InputTable} {s t u : MemoryStore}

/-- A store has its own rows. -/
theorem Same.refl (k : InputTable) (s : MemoryStore) : k.Same s s := by
  cases k <;> rfl

/-- The order of the stores does not matter. -/
theorem Same.symm (h : k.Same s t) : k.Same t s := by
  cases k <;> exact Eq.symm h

/-- Stores with the rows of one store have the same rows. -/
theorem Same.trans (h : k.Same s t) (h' : k.Same t u) : k.Same s u := by
  cases k <;> exact Eq.trans h' h

end InputTable

/-- The table that a call writes, if it is one of the inputs. -/
def Call.input? : Call → Option InputTable
  | insertOverride _ => some .overrides
  | updateOverride _ _ => some .overrides
  | _ => none

/-- The table that a change of the design writes, if it is one of the inputs. -/
def DesignChange.input? : DesignChange → Option InputTable
  | addStep _ => some .steps
  | replaceSteps _ _ => some .steps
  | addDataSpec _ => some .specs
  | addOverride _ => some .overrides
  | writeOverride _ _ _ => some .overrides
  | _ => none

/-- The table that a move writes, if it is one of the inputs; a compile call writes none of them. -/
def Move.input? {ι : Type} : Move ι → Option InputTable
  | advance _ => none
  | call c => c.input?
  | change d => d.input?

/-- No change of the steps is followed by one of the overrides or the specs, and none of the
overrides by one of the specs. -/
def InputsInOrder {ι : Type} (moves : List (Move ι)) : Prop :=
  (moves.filterMap Move.input?).Pairwise fun a b => a.rank ≤ b.rank

/-- A call that writes no overrides writes none of the inputs. -/
theorem Call.input?_eq_none {c : Call} (h : c.SparesInputs) : c.input? = none := by
  cases c with
  | insertOverride => exact h.elim
  | updateOverride => exact h.elim
  | _ => rfl

namespace MemoryState

variable {supply : Supply} {k : InputTable}

/-- A call leaves the inputs that it does not write alone. -/
theorem same_answer {c : Call} (h : c.input? ≠ some k) (s : MemoryState) :
    k.Same s.store (answer supply c s).2.store := by
  have hlater : s.store.Later (answer supply c s).2.store := later_answer supply c s
  cases k with
  | specs => exact hlater.dataSpecs
  | steps => exact hlater.steps
  | overrides =>
    cases c with
    | insertOverride => exact absurd rfl h
    | updateOverride => exact absurd rfl h
    | insertVersion draft expected =>
      simp only [answer]
      split
      · rfl
      · next hinsert =>
        obtain ⟨-, -, -, rfl⟩ := MemoryStore.insertVersion_eq_ok.1 hinsert
        rfl
    | _ => rfl

/-- A change of the design leaves the inputs that it does not write alone. -/
theorem same_change {d : DesignChange} (h : d.input? ≠ some k) (s : MemoryStore) :
    k.Same s (d.apply s) := by
  cases d with
  | writeOverride id patch stamp =>
    have hlater : s.Later (s.writeOverride id patch stamp).2 := s.later_writeOverride id patch stamp
    cases k with
    | specs => exact hlater.dataSpecs
    | steps => exact hlater.steps
    | overrides => exact absurd rfl h
  | _ => cases k <;> first | rfl | exact absurd rfl h

end MemoryState

namespace World

variable {ι α : Type} [DecidableEq ι] {supply : Supply} {w : World ι α} {k : InputTable}

/-- Programs that write no inputs go on like this. -/
theorem onlyCalls_run {ok : Call → Prop} (h : ∀ j, (w.programs j).OnlyCalls ok)
    (moves : List (Move ι)) : ∀ j, ((w.run supply moves).programs j).OnlyCalls ok := by
  induction moves generalizing w with
  | nil => exact h
  | cons m moves ih =>
    refine ih fun j => ?_
    by_cases hm : m = .advance j
    · rw [hm, programs_advance_self]
      exact (h j).advance w.state
    · rw [programs_move_of_ne w hm]
      exact h j

/-- A move leaves the inputs that it does not write alone. -/
theorem same_move (h : ∀ j, (w.programs j).OnlyCalls Call.SparesInputs) {m : Move ι}
    (hm : m.input? ≠ some k) : k.Same w.state.store (w.move supply m).state.store := by
  cases m with
  | advance j =>
    rw [state_advance]
    have hj := h j
    cases hp : w.programs j with
    | done a => exact .refl k _
    | readClock next => exact .refl k _
    | call c next =>
      rw [hp] at hj
      exact MemoryState.same_answer (by rw [Call.input?_eq_none hj.1]; nofun) _
  | call c => exact MemoryState.same_answer hm _
  | change d => exact MemoryState.same_change hm _

/-- A table stays as it is while others are written. -/
theorem same_run (h : ∀ j, (w.programs j).OnlyCalls Call.SparesInputs) {moves : List (Move ι)}
    (hmoves : ∀ m ∈ moves, m.input? ≠ some k) :
    k.Same w.state.store (w.run supply moves).state.store := by
  induction moves generalizing w with
  | nil => exact .refl k _
  | cons m moves ih =>
    obtain ⟨hm, hrest⟩ := List.forall_mem_cons.1 hmoves
    exact (same_move h hm).trans (ih (onlyCalls_run h [m]) hrest)

end World

/-- Changes that are in order are changes of the specs, then of the overrides, then of the steps. -/
theorem InputsInOrder.split {ι : Type} {moves : List (Move ι)} (h : InputsInOrder moves) :
    ∃ a b c, moves = a ++ b ++ c ∧
      (∀ m ∈ a, m.input? ≠ some .overrides ∧ m.input? ≠ some .steps) ∧
      (∀ m ∈ b, m.input? ≠ some .specs ∧ m.input? ≠ some .steps) ∧
      ∀ m ∈ c, m.input? ≠ some .specs ∧ m.input? ≠ some .overrides := by
  induction moves with
  | nil => exact ⟨[], [], [], rfl, by simp, by simp, by simp⟩
  | cons m moves ih =>
    unfold InputsInOrder at h
    rw [List.filterMap_cons] at h
    cases hm : m.input? with
    | none =>
      rw [hm] at h
      obtain ⟨a, b, c, rfl, ha, hb, hc⟩ := ih h
      exact ⟨m :: a, b, c, rfl, List.forall_mem_cons.2 ⟨by simp [hm], ha⟩, hb, hc⟩
    | some k =>
      rw [hm] at h
      obtain ⟨hk, hrest⟩ := List.pairwise_cons.1 h
      obtain ⟨a, b, c, rfl, ha, hb, hc⟩ := ih hrest
      -- what comes after the change is of no lower rank
      have hnot (k' : InputTable) (hlt : k'.rank < k.rank) :
          ∀ m ∈ a ++ b ++ c, m.input? ≠ some k' := fun m hmem heq =>
        absurd (hk k' (List.mem_filterMap.2 ⟨m, hmem, heq⟩)) (Nat.not_le.2 hlt)
      cases k with
      | specs => exact ⟨m :: a, b, c, rfl, List.forall_mem_cons.2 ⟨by simp [hm], ha⟩, hb, hc⟩
      | overrides =>
        have hspecs := hnot .specs (by decide)
        refine ⟨[], m :: (a ++ b), c, rfl, by simp, ?_, hc⟩
        refine List.forall_mem_cons.2 ⟨by simp [hm], fun m' hm' =>
          ⟨hspecs m' (List.mem_append_left _ hm'), ?_⟩⟩
        rcases List.mem_append.1 hm' with hm' | hm'
        · exact (ha m' hm').2
        · exact (hb m' hm').2
      | steps =>
        have hspecs := hnot .specs (by decide)
        have hoverrides := hnot .overrides (by decide)
        exact ⟨[], [], m :: (a ++ b ++ c), rfl, by simp, by simp,
          List.forall_mem_cons.2 ⟨by simp [hm], fun m' hm' => ⟨hspecs m' hm', hoverrides m' hm'⟩⟩⟩

/-- Some of the moves are in order if all of them are. -/
theorem InputsInOrder.sublist {ι : Type} {moves more : List (Move ι)} (h : InputsInOrder more)
    (hsub : moves.Sublist more) : InputsInOrder moves :=
  List.Pairwise.sublist (hsub.filterMap _) h

/-- What a route compiles to depends on the rows of the three tables. -/
theorem InputTable.compilation_eq {s₂ s₃ s₄ t : MemoryStore} (h₂ : steps.Same s₂ t)
    (h₃ : overrides.Same t s₃) (h₄ : specs.Same t s₄) (r : Routing) :
    Compilation.ofReads r (s₂.listSteps r.id)
      (s₃.listOverrides (.forRouting r (s₂.listSteps r.id))) s₄.findDataSpecs =
      t.compilation r := by
  have hsteps : t.listSteps = s₂.listSteps := by
    funext routingId
    rw [MemoryStore.listSteps, MemoryStore.listSteps, show t.steps = s₂.steps from h₂]
  have hoverrides : s₃.listOverrides = t.listOverrides := by
    funext f
    rw [MemoryStore.listOverrides, MemoryStore.listOverrides,
      show s₃.overrides = t.overrides from h₃]
  have hspecs : s₄.findDataSpecs = t.findDataSpecs := by
    funext ids
    rw [MemoryStore.findDataSpecs, MemoryStore.findDataSpecs,
      show s₄.dataSpecs = t.dataSpecs from h₄]
  rw [MemoryStore.compilation, hsteps, hoverrides, hspecs]

namespace World

variable {ι α : Type} [DecidableEq ι] {supply : Supply} {w : World ι α}

/-- If the changes between the read of the steps and that of the specs are in order, there is a
moment in between at which all three tables are as they were when they were read. -/
theorem exists_moment (supply : Supply) (h : ∀ j, (w.programs j).OnlyCalls Call.SparesInputs)
    {y z : List (Move ι)} (horder : InputsInOrder (y ++ z)) : ∃ m, m <+: y ++ z ∧
      InputTable.steps.Same w.state.store (w.run supply m).state.store ∧
      InputTable.overrides.Same (w.run supply m).state.store (w.run supply y).state.store ∧
      InputTable.specs.Same (w.run supply m).state.store (w.run supply (y ++ z)).state.store := by
  have hsame {k : InputTable} {m rest : List (Move ι)} (hrest : ∀ m ∈ rest, m.input? ≠ some k) :
      k.Same (w.run supply m).state.store (w.run supply (m ++ rest)).state.store := by
    rw [run_append]
    exact same_run (onlyCalls_run h m) hrest
  obtain ⟨a, b, c, hsplit, ha, hb, hc⟩ := horder.split
  have hsteps {m : List (Move ι)} (hm : m.Sublist (a ++ b)) :
      InputTable.steps.Same w.state.store (w.run supply m).state.store :=
    same_run h fun m hmem => (List.mem_append.1 (hm.subset hmem)).elim (fun hm => (ha m hm).2)
      fun hm => (hb m hm).2
  -- the moment is that of the read of the overrides, unless it is too early or too late
  rcases List.append_eq_append_iff.1 hsplit with ⟨d, hd, rfl⟩ | ⟨d, rfl, rfl⟩
  · rcases List.append_eq_append_iff.1 hd with ⟨e, rfl, rfl⟩ | ⟨e, rfl, rfl⟩
    · refine ⟨a ++ e, List.prefix_append .., hsteps ?_, .refl _ _, hsame ?_⟩
      · rw [← List.append_assoc]
        exact List.sublist_append_left ..
      · exact List.forall_mem_append.2
          ⟨fun m hm => (hb m (List.mem_append_right _ hm)).1, fun m hm => (hc m hm).1⟩
    · refine ⟨y ++ e, ?_, hsteps (List.sublist_append_left ..), ?_, ?_⟩
      · rw [hsplit, List.append_assoc]
        exact List.prefix_append ..
      · exact (hsame fun m hm => (ha m (List.mem_append_right _ hm)).1).symm
      · rw [hsplit, List.append_assoc]
        exact hsame (List.forall_mem_append.2
          ⟨fun m hm => (hb m hm).1, fun m hm => (hc m hm).1⟩)
  · refine ⟨a ++ b, ?_, hsteps (List.Sublist.refl _), ?_, ?_⟩
    · rw [List.append_assoc]
      exact List.prefix_append ..
    · exact hsame fun m hm => (hc m (List.mem_append_left _ hm)).2
    · rw [hsplit]
      exact hsame fun m hm => (hc m hm).1

/-- What was read in order while the changes were in order was there at one moment. -/
theorem ReadInOrder.compilation {start window : List (Move ι)} {r : Routing} {c : Compilation}
    (h : ∀ j, (w.programs j).OnlyCalls Call.SparesInputs)
    (hread : w.ReadInOrder supply start (start ++ window) r c) (horder : InputsInOrder window) :
    ∃ m, start <+: m ∧ m <+: start ++ window ∧
      c = (w.run supply m).state.store.compilation r := by
  obtain ⟨_, _, _, ⟨x, rfl⟩, ⟨y, rfl⟩, ⟨z, rfl⟩, ⟨rest, hrest⟩, rfl⟩ := hread
  have hwindow : window = x ++ (y ++ z ++ rest) := by
    simpa [List.append_assoc] using hrest.symm
  have hsub : (y ++ z).Sublist window := by
    rw [hwindow]
    exact (List.sublist_append_left ..).trans (List.sublist_append_right ..)
  obtain ⟨m, hm, hsteps, hoverrides, hspecs⟩ :=
    exists_moment supply (onlyCalls_run h (start ++ x)) (horder.sublist hsub)
  refine ⟨start ++ x ++ m, ?_, ?_, ?_⟩
  · rw [List.append_assoc]
    exact List.prefix_append ..
  · obtain ⟨more, hmore⟩ := hm
    refine ⟨more ++ rest, ?_⟩
    rw [hwindow, ← hmore]
    simp
  · rw [← run_append] at hsteps
    rw [← run_append, ← run_append] at hoverrides
    rw [← run_append, ← run_append, ← List.append_assoc] at hspecs
    exact InputTable.compilation_eq hsteps hoverrides hspecs r

end World

/-! ## Versions -/

/-- The compiled steps of a version are those of the compilation it is made from. -/
theorem Compilation.Makes.field?_steps {c : Compilation} {r : Routing} {v : RouteVersion}
    (h : c.Makes r v) :
    v.snapshot.json.field? "steps" = some (stepsJson c.core.steps).normal := by
  obtain ⟨prior, compiledAt, id, rfl⟩ := h
  exact c.core.field?_steps_stamp _

namespace World

variable {ι : Type} [DecidableEq ι] {supply : Supply} {i : ι} {v : RouteVersion}

/-- Along a run each compile call follows its protocol, and what it remembers is true of the run. -/
theorem compiling_hasReadFrom (supply : Supply) (s : MemoryState) (code : ι → String)
    (attempts : ι → Nat) (i : ι) (moves : List (Move ι)) :
    ∃ g, (((compiling s code attempts).run supply moves).programs i).Follows supply
        (attemptProtocol (code i)) (fun _ _ => True) g ∧
      HasReadFrom supply (code i) (compiling s code attempts) i moves g := by
  have hfollows : ((compiling s code attempts).programs i).Follows supply
      (attemptProtocol (code i)) (fun _ _ => True) .nothing :=
    Program.Follows.imp (Service.follows_compileWithin_attempt _ _) fun _ _ _ => trivial
  refine run_follows hfollows .nothing (fun moves m g h hm => h.concat ?_)
    (fun moves g c next h hp hallows => h.call hp hallows) moves
  intro heq code next hp
  have hcall := hm heq
  rw [hp] at hcall
  cases hcall

/-- Compile calls write no inputs. -/
theorem onlyCalls_compiling {ι : Type} (s : MemoryState) (code : ι → String) (attempts : ι → Nat) :
    ∀ j, ((compiling s code attempts).programs j).OnlyCalls Call.SparesInputs :=
  fun j => Service.onlyCalls_compileWithin (code j) _ _

/-- A version that a move of a program inserts is the row of a draft that the program wanted to be
inserted. -/
theorem exists_draft_of_inserted {α : Type} {w : World ι α} (hbefore : v ∉ w.state.store.versions)
    (hafter : v ∈ (w.move supply (.advance i)).state.store.versions) :
    ∃ draft expected next id, w.programs i = .call (.insertVersion draft expected) next ∧
      v = draft.row id := by
  rw [state_advance] at hafter
  cases hp : w.programs i with
  | done a =>
    rw [hp] at hafter
    exact absurd hafter hbefore
  | readClock next =>
    rw [hp] at hafter
    exact absurd hafter hbefore
  | call c next =>
    rw [hp] at hafter
    by_cases hc : ∃ draft expected, c = .insertVersion draft expected
    · obtain ⟨draft, expected, rfl⟩ := hc
      simp only [Program.advance, MemoryState.backend, MemoryState.answer] at hafter
      split at hafter
      · exact absurd hafter hbefore
      · next hinsert =>
        obtain ⟨-, -, rfl, rfl⟩ := MemoryStore.insertVersion_eq_ok.1 hinsert
        refine ⟨draft, expected, next, supply.versionId w.state.versionIds, rfl, ?_⟩
        exact List.mem_singleton.1 ((List.mem_append.1 hafter).resolve_left hbefore)
    · have hversions := MemoryState.versions_answer supply (c := c) w.state
        fun draft expected heq => hc ⟨draft, expected, heq⟩
      exact absurd (hversions ▸ hafter) hbefore

/-- **A version is put together from four moments of its attempt.** Compile calls run among any
calls of other clients and changes of the design, and one of them inserts a version. The version is
made from what the attempt has read since it began: the routing, the steps, the overrides and the
specs, each at some moment and in this order. If in the meantime no change of the steps is followed
by one of the overrides or the specs, and none of the overrides by one of the specs, the version is
made from what the route compiles to at one of these moments. -/
theorem inserted_readInOrder (supply : Supply) (s : MemoryState) (code : ι → String)
    (attempts : ι → Nat) (moves : List (Move ι))
    (hbefore : v ∉ ((compiling s code attempts).run supply moves).state.store.versions)
    (hafter : v ∈
      ((compiling s code attempts).run supply (moves ++ [.advance i])).state.store.versions) :
    ∃ start window r c, moves = start ++ window ∧
      (compiling s code attempts).BeganAt supply i start moves ∧
      ((compiling s code attempts).run supply start).state.store.findRouting (code i) = some r ∧
      (compiling s code attempts).ReadInOrder supply start moves r c ∧ c.Makes r v ∧
      (InputsInOrder window → ∃ m, start <+: m ∧ m <+: moves ∧
        ((compiling s code attempts).run supply m).state.store.Compiles (code i) r c) := by
  rw [run_append] at hafter
  obtain ⟨draft, expected, next, id, hp, rfl⟩ := exists_draft_of_inserted hbefore hafter
  obtain ⟨g, hfollows, hg⟩ := compiling_hasReadFrom supply s code attempts i moves
  rw [hp] at hfollows
  obtain ⟨r, c, compiledAt, hc, rfl⟩ := hfollows.1
  obtain ⟨start, hbegan, hr, hread⟩ := hg.readInOrder hc
  obtain ⟨window, rfl⟩ := hbegan.isPrefix
  refine ⟨start, window, r, c, rfl, hbegan, hr, hread, ⟨expected, compiledAt, id, rfl⟩,
    fun horder => ?_⟩
  obtain ⟨m, hstart, hm, hcompilation⟩ :=
    hread.compilation (onlyCalls_compiling s code attempts) horder
  refine ⟨m, hstart, hm, ?_, hcompilation⟩
  obtain ⟨more, rfl⟩ := hstart
  rw [run_append]
  exact (grows_run more _).findRouting hr

end World

/-! ## A mixed version -/

namespace MixedReads

open SingleStep (routing supply)

/-- A call of a route with one step, and another step that takes the place of the first one. -/
def world : World Unit (Except RequestError RouteVersion) :=
  .compiling (.start (SingleStep.store (some .auto))) (fun _ => "R1") fun _ => 1

/-- The step that takes the place of the first one. -/
def newStep : RoutingStep := ⟨"s2", "r1", 1, "op2", none, some .auto, some "g", false⟩

/-- An override that sets the station type of the route. -/
def manual : OverrideDraft where
  scope := .route
  routingId := some "r1"
  routingStepId := none
  sourceStepKey := none
  stationType := some .manual
  stationGroupId := none
  allowedStationIds := none
  requiresFAI := none
  requiresAuthorization := none
  dataSpecIds := none
  ingestMapping := none
  info := none

/-- The call has read the old step when the step is replaced and the override is created. -/
def moves : List (Move Unit) :=
  [.advance (), .advance (), .change (.replaceSteps "r1" [newStep]),
    .call (.insertOverride manual), .advance (), .advance (), .advance ()]

/-- What the old step compiles to under the new override. -/
def mixed : Compilation :=
  .ofReads routing (SingleStep.store (some .auto)).steps [manual.row "o2" ⟨0, 0⟩] fun _ => []

/-- The same changes in the other order. -/
def movesInOrder : List (Move Unit) :=
  [.advance (), .advance (), .call (.insertOverride manual),
    .change (.replaceSteps "r1" [newStep]), .advance (), .advance (), .advance ()]

/-- In both runs the call inserts what the old step compiles to under the new override. -/
theorem versions_after (l : List (Move Unit)) (hl : l = moves ∨ l = movesInOrder) :
    (world.run supply l).state.store.versions = [] ∧
      (world.run supply (l ++ [.advance ()])).state.store.versions =
        [(mixed.draft "r1" none ⟨0, 0⟩).row "v1"] := by
  rcases hl with rfl | rfl
  · exact ⟨by with_unfolding_all rfl, by with_unfolding_all rfl⟩
  · exact ⟨by with_unfolding_all rfl, by with_unfolding_all rfl⟩

/-- At no moment of the run does the route compile to the steps of the version. -/
theorem steps_ne : ∀ m ∈ (moves ++ [Move.advance ()]).inits,
    (stepsJson
        ((world.run supply m).state.store.compilation routing).core.steps).normal ≠
      (stepsJson mixed.core.steps).normal := by
  decide +kernel

/-- At every moment of the run the code is that of the routing. -/
theorem findRouting_eq : ∀ m ∈ (moves ++ [Move.advance ()]).inits,
    (world.run supply m).state.store.findRouting "R1" = some routing := by
  decide +kernel

end MixedReads

/-- The old step is compiled under an override that was created when the step had been replaced,
which the route does not compile to at any moment of the run. -/
theorem World.not_snapshot_mixedReads :
    ∃ v ∈ (MixedReads.world.run SingleStep.supply
        (MixedReads.moves ++ [.advance ()])).state.store.versions,
      ∀ m, m <+: MixedReads.moves ++ [.advance ()] → ∀ r c,
        (MixedReads.world.run SingleStep.supply m).state.store.Compiles "R1" r c →
        ¬c.Makes r v := by
  rw [(MixedReads.versions_after _ (.inl rfl)).2]
  refine ⟨_, List.mem_singleton_self _, fun m hm r c hc hmakes => ?_⟩
  have hm := (List.mem_inits _ _).2 hm
  obtain ⟨hr, rfl⟩ := hc
  rw [MixedReads.findRouting_eq m hm] at hr
  obtain rfl := Option.some.inj hr
  have hmixed : MixedReads.mixed.Makes SingleStep.routing
      ((MixedReads.mixed.draft "r1" none ⟨0, 0⟩).row "v1") := ⟨none, ⟨0, 0⟩, "v1", rfl⟩
  have hsteps := hmakes.field?_steps.symm.trans hmixed.field?_steps
  exact MixedReads.steps_ne m hm (Option.some.inj hsteps)

/-- If the override is created before the step is replaced, there is such a moment, between the two
changes. -/
theorem World.inserted_readInOrder_laterSteps :
    ∃ v ∈ (MixedReads.world.run SingleStep.supply
        (MixedReads.movesInOrder ++ [.advance ()])).state.store.versions,
      ∃ m r c, m <+: MixedReads.movesInOrder ∧
        (MixedReads.world.run SingleStep.supply m).state.store.Compiles "R1" r c ∧ c.Makes r v := by
  obtain ⟨hbefore, hafter⟩ := MixedReads.versions_after _ (.inr rfl)
  obtain ⟨start, window, r, c, hmoves, -, -, -, hmakes, hmoment⟩ :=
    inserted_readInOrder (v := (MixedReads.mixed.draft "r1" none ⟨0, 0⟩).row "v1") (i := ())
      SingleStep.supply (.start (SingleStep.store (some .auto))) (fun _ : Unit => "R1")
      (fun _ => 1) MixedReads.movesInOrder (hbefore ▸ List.not_mem_nil)
      (hafter ▸ List.mem_singleton_self _)
  have horder : InputsInOrder MixedReads.movesInOrder := by
    unfold InputsInOrder
    decide
  obtain ⟨m, -, hm, hcompiles⟩ :=
    hmoment (horder.sublist (hmoves ▸ List.sublist_append_right ..))
  exact ⟨_, hafter ▸ List.mem_singleton_self _, m, r, c, hm, hcompiles, hmakes⟩

end RoutePlan
