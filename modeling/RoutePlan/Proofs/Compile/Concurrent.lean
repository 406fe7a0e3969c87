import RoutePlan.Proofs.Compile.Attempt
import RoutePlan.Proofs.Concurrency.Termination

/-!
# Compile calls that run at the same time

Any number of compile calls run on one store, among calls of other clients and changes of the design
data (`World.compiling`). Whatever the others do, each move of a compile call leaves the inputs as
they are and inserts at most one version (`World.Reached.compileMove`), and a call ends after a
number of moves of its own that is known in advance (`Service.endsWithin_compile`).
-/

namespace RoutePlan

/-! ## Inputs -/

/-- `t` differs from `s` in its versions at most. -/
def MemoryStore.SameInputs (s t : MemoryStore) : Prop := ∃ versions, t = { s with versions }

namespace MemoryStore.SameInputs

variable {s t u : MemoryStore}

/-- A store has its own inputs. -/
theorem refl (s : MemoryStore) : s.SameInputs s := ⟨s.versions, rfl⟩

/-- Stores with the inputs of one store have the same inputs. -/
theorem trans (h : s.SameInputs t) (h' : t.SameInputs u) : s.SameInputs u := by
  obtain ⟨_, rfl⟩ := h
  obtain ⟨vs, rfl⟩ := h'
  exact ⟨vs, rfl⟩

/-- The order of the stores does not matter. -/
theorem symm (h : s.SameInputs t) : t.SameInputs s := by
  obtain ⟨_, rfl⟩ := h
  exact ⟨s.versions, rfl⟩

/-- Two stores with the same inputs and the same versions are the same. -/
theorem eq_of_versions (h : s.SameInputs t) (hv : t.versions = s.versions) : t = s := by
  obtain ⟨versions, rfl⟩ := h
  have hv : versions = s.versions := hv
  rw [hv]

/-- A new version leaves the inputs alone. -/
theorem addVersion (v : RouteVersion) (s : MemoryStore) : s.SameInputs (s.addVersion v) :=
  ⟨s.versions ++ [v], rfl⟩

/-- With the same inputs the same routings are found. -/
theorem findRouting (h : s.SameInputs t) : t.findRouting = s.findRouting := by
  obtain ⟨_, rfl⟩ := h
  rfl

/-- With the same inputs the same steps are listed. -/
theorem listSteps (h : s.SameInputs t) : t.listSteps = s.listSteps := by
  obtain ⟨_, rfl⟩ := h
  rfl

/-- With the same inputs every route compiles to the same. -/
theorem compilation (h : s.SameInputs t) : t.compilation = s.compilation := by
  obtain ⟨_, rfl⟩ := h
  rfl

/-- Whatever was read from stores with the same inputs, at whichever moments, compiles to what any
of them compiles to. -/
theorem ofReads {s₁ s₂ s₃ : MemoryStore} (h₁ : s.SameInputs s₁) (h₂ : s.SameInputs s₂)
    (h₃ : s.SameInputs s₃) (r : Routing) :
    Compilation.ofReads r (s₁.listSteps r.id)
      (s₂.listOverrides (.forRouting r (s₁.listSteps r.id))) s₃.findDataSpecs =
      s.compilation r := by
  obtain ⟨_, rfl⟩ := h₁
  obtain ⟨_, rfl⟩ := h₂
  obtain ⟨_, rfl⟩ := h₃
  rfl

end MemoryStore.SameInputs

namespace MemoryStore

/-! ## What others may do at most -/

/-- The store grows, and the version numbers stay in range. -/
def GrowsInRange (s t : MemoryStore) : Prop := s.Grows t ∧ t.InRange

/-- The route with the code, whatever it compiles to. -/
def Holds (code : String) (s : MemoryStore) (r : Routing) (_ : Compilation) : Prop :=
  s.findRouting code = some r

/-- The route with the code and what it compiles to in the store. -/
def Compiles (code : String) (s : MemoryStore) (r : Routing) (c : Compilation) : Prop :=
  s.findRouting code = some r ∧ c = s.compilation r

/-- With the same inputs a code compiles to the same. -/
theorem SameInputs.compiles {code : String} {s t : MemoryStore} {r : Routing} {c : Compilation}
    (h : s.SameInputs t) (hc : s.Compiles code r c) : t.Compiles code r c := by
  unfold Compiles
  rw [h.findRouting, h.compilation]
  exact hc

/-- Others may let the store grow in range among compile calls. -/
theorem interference_growsInRange : Interference GrowsInRange where
  trans h h' := ⟨h.1.trans h'.1, h'.2⟩
  self h := ⟨.refl _, h.2⟩
  grows h := h.1
  inRange h := h.2

end MemoryStore

namespace CompileMove

variable {P : MemoryStore → Routing → Compilation → Prop} {s t : MemoryStore}

/-- A compile call leaves the inputs alone. -/
theorem sameInputs (h : CompileMove P s t) : s.SameInputs t := by
  cases h with
  | nothing => exact .refl s
  | version => exact .addVersion _ s

/-- A compile call only adds a version, and with a new number. -/
theorem grows (h : CompileMove P s t) (hrange : s.InRange) : s.Grows t := by
  cases h with
  | nothing => exact .refl s
  | version r c compiledAt id _ _ =>
    exact MemoryStore.grows_addVersion (MemoryStore.findVersion_nextVersionNo hrange r.id)

/-- Once the latest version of a route is up to date, a compile call of the route writes nothing,
if it read the inputs that the store has. -/
theorem eq_of_upToDate {code : String} {v : RouteVersion}
    (h : CompileMove (MemoryStore.Compiles code) s t)
    (hv : UpToDate (MemoryStore.Compiles code) v s) : t = s := by
  cases h with
  | nothing => rfl
  | version r c compiledAt id hc hnew =>
    obtain ⟨r', c', hc', hlatest, hreuse⟩ := hv
    have hr := hc'.1
    rw [hc.1, Option.some.injEq] at hr
    subst hr
    rw [hlatest, hc.2, ← hc'.2, hreuse] at hnew
    cases hnew

end CompileMove

namespace ReadBetween

variable {R : MemoryStore → MemoryStore → Prop} {code : String} {s t : MemoryStore} {r : Routing}
  {c : Compilation}

/-- The routing that was read is still the one with the code. -/
theorem holds (h : ReadBetween R code s t r c) (hR : Growing R) : t.Holds code r c := by
  obtain ⟨_, _, _, _, -, h₂, h₃, h₄, h₅, hr, -⟩ := h
  exact (hR.grows (hR.trans h₂ (hR.trans h₃ (hR.trans h₄ h₅)))).findRouting hr

/-- If nothing changes the inputs, what was read is what the store compiles to. -/
theorem compilation (h : ReadBetween R code s t r c) (hR : Growing R)
    (hinputs : ∀ {s t}, R s t → s.SameInputs t) : c = t.compilation r := by
  obtain ⟨_, _, _, _, -, h₂, h₃, h₄, h₅, -, rfl⟩ := h
  have h₃₅ := hR.trans h₄ h₅
  exact MemoryStore.SameInputs.ofReads (hinputs (hR.trans h₃ h₃₅)).symm (hinputs h₃₅).symm
    (hinputs h₅).symm r

end ReadBetween

/-! ## How long a call takes -/

namespace Service

/-- The routing is loaded in one move. -/
theorem endsWithin_loadRouting (code : String) : EndsWithin 1 (loadRouting code) :=
  (endsWithin_call _).bind fun _ => endsWithin_orRefuse ..

/-- The specs are read in one move at most. -/
theorem endsWithin_specsOf (ids : List String) : EndsWithin 1 (specsOf ids) :=
  endsWithin_ite ((endsWithin_pure _).mono (Nat.zero_le 1)) (endsWithin_call _)

/-- The inputs of a compilation are read in three moves at most. -/
theorem endsWithin_readCompilation (r : Routing) : EndsWithin 3 (readCompilation r) := by
  unfold readCompilation
  refine (endsWithin_call _).bind fun steps => ?_
  refine endsWithin_ite ((endsWithin_throw _).bind fun _ => ?_) ?_ <;>
    exact (endsWithin_call _).bind fun _ => (endsWithin_specsOf _).bind fun _ => endsWithin_pure _

/-- The version is settled in three moves at most. -/
theorem endsWithin_settleVersion (r : Routing) (c : Compilation) :
    EndsWithin 3 (settleVersion r c) := by
  unfold settleVersion
  refine (endsWithin_call _).bind fun prior => ?_
  split
  · exact (endsWithin_pure _).mono (Nat.zero_le 2)
  · exact endsWithin_now.bind fun _ => endsWithin_call _

/-- An attempt takes at most seven moves. -/
theorem endsWithin_compileOnce (code : String) : EndsWithin 7 (compileOnce code) :=
  (endsWithin_loadRouting code).bind fun r => (endsWithin_readCompilation r).bind fun c =>
    endsWithin_settleVersion r c

/-- The attempts that are left take at most seven moves each. -/
theorem endsWithin_compileWithin (code : String) (attempts left : Nat) :
    EndsWithin (7 * left) (compileWithin code attempts left) := by
  induction left with
  | zero => exact endsWithin_throw _
  | succ left ih =>
    exact (endsWithin_compileOnce code).tryCatch fun e =>
      endsWithin_ite ih ((endsWithin_throw e).mono (Nat.zero_le _))

/-- A compile call takes at most seven moves for each of its attempts. -/
theorem endsWithin_compile (code : String) (attempts : Nat) :
    EndsWithin (7 * max 1 attempts) (compile code attempts) :=
  endsWithin_compileWithin ..

end Service

/-! ## Compile calls in a run -/

namespace World

variable {ι : Type} [DecidableEq ι] {supply : Supply}

/-- A store and compile calls that have not begun. -/
def compiling (s : MemoryState) (code : ι → String) (attempts : ι → Nat) :
    World ι (Except RequestError RouteVersion) :=
  ⟨s, fun i => (Service.compile (code i) (attempts i)).run⟩

variable {s : MemoryState} {code : ι → String} {attempts : ι → Nat} {moves : List (Move ι)}

/-- In every run that stays in range the store grows in range. -/
theorem respects_growsInRange {α : Type} {guarantee : MemoryState → MemoryState → Prop}
    {w : World ι α} (hrange : (w.run supply moves).state.store.InRange) :
    w.Respects ⟨fun s t => s.store.GrowsInRange t.store, guarantee⟩ supply moves := by
  induction moves generalizing w with
  | nil => exact ⟨.refl _, hrange⟩
  | cons m moves ih =>
    have hm := hrange.of_grows (grows_run moves (w.move supply m))
    exact ⟨⟨.refl _, hm.of_grows (grows_move w m)⟩, ⟨grows_move w m, hm⟩, ih hrange⟩

/-- A world that a run of compile calls of the given codes has reached. -/
def Reached (supply : Supply) (code : ι → String)
    (w : World ι (Except RequestError RouteVersion)) : Prop :=
  ∃ s attempts moves, w = (compiling s code attempts).run supply moves

variable {w : World ι (Except RequestError RouteVersion)}

/-- What a run leads to from a reached world is reached. -/
theorem Reached.run (h : w.Reached supply code) (moves : List (Move ι)) :
    (w.run supply moves).Reached supply code := by
  obtain ⟨s, attempts, before, rfl⟩ := h
  exact ⟨s, attempts, before ++ moves, (run_append ..).symm⟩

/-- What a schedule leads to from a reached world is reached. -/
theorem Reached.runSchedule (h : w.Reached supply code) (schedule : List ι) :
    (w.runSchedule supply schedule).Reached supply code :=
  h.run _

/-- A program that keeps the contract of compile calls at the beginning of a run makes the moves of
a compile call all along, if every move of the run satisfies the rely. -/
theorem compileMove_advance {R : MemoryStore → MemoryStore → Prop}
    {P : MemoryStore → Routing → Compilation → Prop} (hR : Growing R)
    {post : Except RequestError RouteVersion → MemoryState → Prop} {i : ι}
    (hkeeps : (w.programs i).Keeps (MemoryState.backend supply) (compileContract R P) post w.state)
    (hmoves : w.Respects (compileContract R P) supply moves) :
    CompileMove P (w.run supply moves).state.store
      ((w.run supply moves).move supply (.advance i)).state.store := by
  cases hdone : ((w.run supply moves).programs i).isDone with
  | true =>
    rw [state_advance, Program.advance_of_isDone hdone]
    exact .nothing
  | false =>
    exact guarantee_advance (keeps_run_of_running hR.trans hkeeps hmoves hdone) hmoves.run hdone

/-- In every run each move of a compile call leaves the store as it is or inserts a version of its
own route right after the latest one, which was not used again. -/
theorem Reached.compileMove (h : w.Reached supply code) {i : ι}
    (hrange : (w.move supply (.advance i)).state.store.InRange) :
    CompileMove (MemoryStore.Holds (code i)) w.state.store
      (w.move supply (.advance i)).state.store := by
  obtain ⟨s, attempts, moves, rfl⟩ := h
  have hR := MemoryStore.interference_growsInRange
  have hkeeps := Service.keeps_compileWithin (s := s) (P := MemoryStore.Holds (code i)) supply hR
    (fun h => h.holds hR.growing) (fun h => h) (max 1 (attempts i)) (max 1 (attempts i))
  exact compileMove_advance (w := compiling s code attempts) hR.growing hkeeps
    (respects_growsInRange (hrange.of_grows (grows_move _ _)))

end World

/-! ## A route with a single step -/

namespace SingleStep

def routing : Routing := ⟨"r1", "R1", "Route", "MES", none⟩

/-- The route and its step, which has a station type or needs an override that sets it. -/
def store (stationType : Option StationType) : MemoryStore :=
  { MemoryStore.empty with
    routings := [routing]
    steps := [⟨"s1", "r1", 1, "op", none, stationType, some "g", false⟩] }

/-- An override that sets the station type. -/
def manual : Override where
  id := "o1"
  scope := .route
  routingId := some "r1"
  routingStepId := none
  sourceStepKey := none
  operationId := none
  stationType := some .manual
  stationGroupId := none
  allowedStationIds := none
  requiresFAI := none
  requiresAuthorization := none
  dataSpecIds := none
  ingestMapping := none
  info := none
  createdAt := ⟨0, 0⟩
  updatedAt := ⟨0, 0⟩

def supply : Supply where
  reading _ := ⟨0, 0⟩
  overrideId _ := "o2"
  versionId n := if n = 0 then "v1" else "v2"

end SingleStep
end RoutePlan
