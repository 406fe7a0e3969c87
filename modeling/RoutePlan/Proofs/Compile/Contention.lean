import RoutePlan.Proofs.Compile.Outcome
import RoutePlan.Proofs.Concurrency.Insertions

/-!
# Contention is only reported for real contention

A compile call follows a protocol (`compileProtocol`): it inserts only what comes next after the
version that it has just read as the latest one of its route, and it gives up only after as many
conflicts as it has attempts. In a store whose version numbers are in range, an insertion after the
latest version cannot fail. So at each conflict someone else has inserted a version of the route
since the latest one was read, and a call gives up only if others have inserted as many versions as
it has attempts (`World.contention_inserted`).
-/

namespace RoutePlan

/-! ## The protocol of a compile call -/

/-- What a compile call remembers: the routing that was found, the number of the latest version if
that is what was read last, and how many insertions were refused. -/
structure CompileMemory where
  routing : Option Routing
  read : Option (Option Int32)
  conflicts : Nat

/-- A compile call reads the routing with its code and the latest version of that routing, and
inserts what comes next after it. -/
def compileProtocol (code : String) : Protocol CompileMemory where
  allows g
    | .findRouting code' => code' = code
    | .latestVersion routingId => ∃ r, g.routing = some r ∧ routingId = r.id
    | .insertVersion draft expected => ∃ r, g.routing = some r ∧ draft.routingId = r.id ∧
      g.read = some expected ∧ draft.versionNo = nextVersionNo expected
    | _ => True
  next g
    | .findRouting _, .ok r? => { g with routing := r?, read := none }
    | .latestVersion _, .ok prior => { g with read := some (prior.map (·.versionNo)) }
    | .insertVersion _ _, .error _ => { g with read := none, conflicts := g.conflicts + 1 }
    | _, _ => { g with read := none }

/-- What the store is asked to insert and refuses cannot be inserted into its rows. -/
theorem MemoryState.insertVersion_of_refused {supply : Supply} {s : MemoryState}
    {draft : VersionDraft} {expected : Option Int32} {e : StoreError}
    (h : (answer supply (.insertVersion draft expected) s).1 = .error e) :
    s.store.insertVersion draft expected (supply.versionId s.versionIds) = .error e := by
  simp only [answer] at h
  split at h
  · next heq => rw [heq, Except.error.inj h]
  · cases h

namespace Service

variable {supply : Supply} {code : String} {g : CompileMemory}

/-- Loading the routing remembers it, and nothing else that was read. -/
theorem follows_loadRouting {post : Routing → CompileMemory → Prop}
    {refused : RequestError → CompileMemory → Prop}
    (hpost : ∀ r, post r { g with routing := some r, read := none })
    (hrefused : ∀ g, refused (.routeNotFound code) g) :
    Follows supply (compileProtocol code) post refused (loadRouting code) g := by
  refine follows_bind.2 (follows_read (·.findRouting code) (fun _ => rfl) rfl fun s => ?_)
  refine follows_orRefuse.2 ?_
  cases s.findRouting code with
  | none => exact hrefused _
  | some r => exact hpost r

/-- Reading the specs forgets the number that was read. -/
theorem follows_specsOf (ids : List String) {post : List DataSpec → CompileMemory → Prop}
    {refused : RequestError → CompileMemory → Prop}
    (hpost : ∀ specs, post specs { g with read := none }) :
    Follows supply (compileProtocol code) post refused (specsOf ids) { g with read := none } :=
  follows_ite (fun _ => follows_pure.2 (hpost [])) fun _ =>
    follows_read (·.findDataSpecs ids) (fun _ => rfl) trivial fun _ => hpost _

/-- Reading the inputs of a compilation forgets the number that was read. -/
theorem follows_readCompilation {r : Routing} {post : Compilation → CompileMemory → Prop}
    {refused : RequestError → CompileMemory → Prop}
    (hpost : ∀ c, post c { g with read := none })
    (hrefused : ∀ g, refused (.routingEmpty r.code) g) :
    Follows supply (compileProtocol code) post refused (readCompilation r) g := by
  refine follows_bind.2 (follows_read (·.listSteps r.id) (fun _ => rfl) trivial fun s => ?_)
  refine follows_ite (fun _ => hrefused _) fun _ => ?_
  refine follows_bind.2 (follows_read (·.listOverrides (.forRouting r (s.listSteps r.id)))
    (fun _ => rfl) trivial fun t => ?_)
  exact follows_bind.2 (follows_specsOf _ fun specs => follows_pure.2 (hpost _))

/-- An attempt ends with a version or with one more conflict. -/
theorem follows_settleVersion {r : Routing} (hr : g.routing = some r) (c : Compilation) :
    Follows supply (compileProtocol code) (fun _ _ => True)
      (fun e h => e.isVersionConflict = true ∧ h.conflicts = g.conflicts + 1)
      (settleVersion r c) g := by
  refine follows_bind.2 (follows_read (·.latestVersion r.id) (fun _ => rfl) ⟨r, hr, rfl⟩
    fun s => ?_)
  split
  · trivial
  · refine follows_bind.2 (follows_now.2 fun t => follows_call.2
      ⟨⟨r, hr, rfl, rfl, rfl⟩, fun u => ?_⟩)
    split
    · trivial
    · next e h =>
      obtain ⟨rfl, -⟩ :=
        MemoryStore.insertVersion_eq_error.1 (MemoryState.insertVersion_of_refused h)
      exact ⟨rfl, rfl⟩

/-- An attempt is refused because there is nothing to compile, or with one more conflict. -/
theorem follows_compileOnce :
    Follows supply (compileProtocol code) (fun _ _ => True)
      (fun e h => e.isVersionConflict = true ∧ h.conflicts = g.conflicts + 1 ∨
        e.isVersionConflict = false ∧ ∀ code n, e ≠ .contention code n)
      (compileOnce code) g := by
  refine follows_bind.2 (follows_loadRouting (fun r => ?_) fun _ => .inr ⟨rfl, nofun⟩)
  refine follows_bind.2 (follows_readCompilation (fun c => ?_) fun _ => .inr ⟨rfl, nofun⟩)
  exact (follows_settleVersion rfl c).imp (fun _ _ => id) fun e h he => .inl he

/-- A call that gives up has had as many conflicts as attempts. -/
theorem follows_compileWithin {attempts : Nat} (left : Nat) (h : attempts ≤ g.conflicts + left) :
    Follows supply (compileProtocol code) (fun _ _ => True)
      (fun e h => ∀ code n, e = .contention code n → n = attempts ∧ attempts ≤ h.conflicts)
      (compileWithin code attempts left) g := by
  induction left generalizing g with
  | zero =>
    refine follows_throw.2 fun code n he => ?_
    cases he
    exact ⟨rfl, h⟩
  | succ left ih =>
    refine follows_tryCatch.2 (follows_compileOnce.imp (fun _ _ => id) fun e g' he => ?_)
    rcases he with ⟨hconflict, hcount⟩ | ⟨hconflict, hother⟩
    · rw [if_pos hconflict]
      exact ih (by omega)
    · rw [if_neg (Bool.eq_false_iff.1 hconflict)]
      exact follows_throw.2 fun code n he => absurd he (hother code n)

end Service

namespace MemoryStore

variable {s : MemoryStore}

/-- In range, a version with the next number after the latest one can be inserted. -/
theorem insertVersion_ne_error (hrange : s.InRange) {draft : VersionDraft} {expected : Option Int32}
    (hlatest : (s.latestVersion draft.routingId).map (·.versionNo) = expected)
    (hno : draft.versionNo = nextVersionNo expected) (id : String) (e : StoreError) :
    s.insertVersion draft expected id ≠ .error e := by
  intro h
  rcases (insertVersion_eq_error.1 h).2 with hne | htaken
  · exact hne hlatest
  · have hfree := findVersion_nextVersionNo hrange draft.routingId
    rw [hlatest, ← hno] at hfree
    exact htaken hfree

end MemoryStore

namespace World

variable {ι α : Type} [DecidableEq ι] {supply : Supply} {w : World ι α} {i : ι}
  {routingId : String}

/-! ## What a compile call remembers of a run -/

/-- In `w` the program was about to read the latest version of the route, which had the number `no`,
and it has made no other call in the moves since. -/
structure HasRead (supply : Supply) (i : ι) (routingId : String) (no : Option Int32)
    (w : World ι α) (moves : List (Move ι)) : Prop where
  call : ∃ next, w.programs i = .call (.latestVersion routingId) next
  number : (w.state.store.latestVersion routingId).map (·.versionNo) = no
  silent : (w.move supply (.advance i)).Silent supply i moves

/-- What the program has read is still the number of the latest version, unless others have inserted
one. -/
theorem HasRead.latestVersion {no : Option Int32} {moves : List (Move ι)}
    (h : w.HasRead supply i routingId no moves)
    (hadded : (w.move supply (.advance i)).insertedByOthers supply i routingId moves = 0) :
    (((w.move supply (.advance i)).run supply moves).state.store.latestVersion routingId).map
      (·.versionNo) = no := by
  obtain ⟨next, hp⟩ := h.call
  have hstore : (w.move supply (.advance i)).state.store = w.state.store := by
    rw [state_advance, hp]
    rfl
  rw [MemoryStore.latestVersion, versionsOf_run_of_silent h.silent hadded, hstore,
    ← MemoryStore.latestVersion, h.number]

/-- What a compile call remembers is true of the run: the routing is the one with the code, others
have inserted a version of it for each conflict, and what was read last was the number of its latest
version at that time. -/
structure Remembers (supply : Supply) (code : String) (i : ι) (w : World ι α)
    (moves : List (Move ι)) (g : CompileMemory) : Prop where
  routing : ∀ r, g.routing = some r →
    (w.run supply moves).state.store.findRouting code = some r
  conflicts : g.conflicts = 0 ∨
    ∃ r, (w.run supply moves).state.store.findRouting code = some r ∧
      g.conflicts ≤ w.insertedByOthers supply i r.id moves
  read : ∀ no r, g.read = some no → g.routing = some r →
    ∃ earlier between, moves = earlier ++ .advance i :: between ∧
      (w.run supply earlier).HasRead supply i r.id no between ∧
      g.conflicts ≤ w.insertedByOthers supply i r.id earlier

namespace Remembers

variable {code : String} {moves : List (Move ι)} {g : CompileMemory}

/-- A call that has not begun remembers nothing. -/
theorem start (w : World ι α) : w.Remembers supply code i [] ⟨none, none, 0⟩ :=
  ⟨nofun, .inl rfl, nofun⟩

/-- One more move lets the store grow. -/
theorem grows_concat (w : World ι α) (moves : List (Move ι)) (m : Move ι) :
    (w.run supply moves).state.store.Grows (w.run supply (moves ++ [m])).state.store := by
  rw [run_append]
  exact grows_move _ m

/-- Whatever moves, a call may forget what it has read. -/
theorem forget (h : w.Remembers supply code i moves g) (m : Move ι) :
    w.Remembers supply code i (moves ++ [m]) { g with read := none } where
  routing r hr := (grows_concat w moves m).findRouting (h.routing r hr)
  conflicts := h.conflicts.imp_right fun ⟨r, hr, hle⟩ =>
    ⟨r, (grows_concat w moves m).findRouting hr, by
      rw [insertedByOthers_append]
      exact Nat.le_add_right_of_le hle⟩
  read := nofun

/-- A move that is no call of the program leaves its memory alone. -/
theorem other (h : w.Remembers supply code i moves g) {m : Move ι}
    (hm : m = .advance i → ((w.run supply moves).programs i).isCall = false) :
    w.Remembers supply code i (moves ++ [m]) g where
  routing := (h.forget m).routing
  conflicts := (h.forget m).conflicts
  read no r hread hr := by
    obtain ⟨earlier, between, hmoves, hhas, hle⟩ := h.read no r hread hr
    refine ⟨earlier, between ++ [m], ?_, ⟨hhas.call, hhas.number, ?_⟩, hle⟩
    · rw [hmoves, List.append_assoc, List.cons_append]
    · rw [hmoves, run_append, run_cons] at hm
      exact silent_append.2 ⟨hhas.silent, hm, trivial⟩

/-- If an insertion is refused, others have inserted a version since the latest one was read. -/
theorem inserted (h : w.Remembers supply code i moves g)
    (hrange : (w.run supply moves).state.store.InRange) {draft : VersionDraft}
    {expected : Option Int32}
    (hallows : (compileProtocol code).allows g (.insertVersion draft expected))
    {e : StoreError}
    (hanswer : (MemoryState.answer supply (.insertVersion draft expected)
      (w.run supply moves).state).1 = .error e) :
    ∃ r earlier between, (w.run supply moves).state.store.findRouting code = some r ∧
      draft.routingId = r.id ∧ moves = earlier ++ .advance i :: between ∧
      (w.run supply earlier).HasRead supply i r.id expected between ∧
      g.conflicts ≤ w.insertedByOthers supply i r.id earlier ∧
      0 < ((w.run supply earlier).move supply (.advance i)).insertedByOthers supply i r.id
        between := by
  obtain ⟨r, hr, hid, hread, hno⟩ := hallows
  obtain ⟨earlier, between, hmoves, hhas, hle⟩ := h.read expected r hread hr
  refine ⟨r, earlier, between, h.routing r hr, hid, hmoves, hhas, hle,
    Nat.pos_of_ne_zero fun hadded => ?_⟩
  have hlatest := hhas.latestVersion hadded
  rw [← run_cons, ← run_append, ← hmoves, ← hid] at hlatest
  exact MemoryStore.insertVersion_ne_error hrange hlatest hno _ e
    (MemoryState.insertVersion_of_refused hanswer)

/-- Each call of the program that is allowed keeps its memory true. -/
theorem call (h : w.Remembers supply code i moves g)
    (hrange : (w.run supply moves).state.store.InRange) {c : Call} {next : c.Answer → Program α}
    (hp : (w.run supply moves).programs i = .call c next)
    (hallows : (compileProtocol code).allows g c) :
    w.Remembers supply code i (moves ++ [.advance i])
      ((compileProtocol code).next g c
        (MemoryState.answer supply c (w.run supply moves).state).1) := by
  have hforget := h.forget (.advance i)
  cases c with
  | findRouting code' =>
    obtain rfl : code' = code := hallows
    exact ⟨fun r hr => (grows_concat w moves _).findRouting hr, hforget.conflicts, nofun⟩
  | latestVersion routingId =>
    obtain ⟨r, hr, rfl⟩ := hallows
    refine ⟨hforget.routing, hforget.conflicts, fun no r' hread hr' => ?_⟩
    obtain rfl := Option.some.inj (hr.symm.trans hr')
    -- from here on it counts what others insert
    refine ⟨moves, [], rfl, ⟨⟨next, hp⟩, Option.some.inj hread, trivial⟩, ?_⟩
    rcases h.conflicts with hzero | ⟨r', hr', hle⟩
    · exact hzero ▸ Nat.zero_le _
    · rw [h.routing r hr, Option.some.injEq] at hr'
      exact hr' ▸ hle
  | insertVersion draft expected =>
    cases hanswer : (MemoryState.answer supply (.insertVersion draft expected)
      (w.run supply moves).state).1 with
    | ok v => exact hforget
    | error e =>
      refine ⟨hforget.routing, .inr ?_, nofun⟩
      obtain ⟨r, earlier, between, hr, -, hmoves, -, hle, hpos⟩ :=
        h.inserted hrange hallows hanswer
      refine ⟨r, (grows_concat w moves _).findRouting hr, ?_⟩
      -- earlier conflicts are accounted for before the read, this one after it
      rw [insertedByOthers_append, hmoves, insertedByOthers_append, insertedByOthers_cons_advance]
      show g.conflicts + 1 ≤ _
      omega
  | _ => exact hforget

end Remembers

/-- Along a run a compile call follows its protocol, and what it remembers is true of the run. -/
theorem compile_remembers (supply : Supply) {w : World ι (Except RequestError RouteVersion)}
    {code : String} {attempts : Nat} (hi : w.programs i = (Service.compile code attempts).run)
    {moves : List (Move ι)} (hrange : (w.run supply moves).state.store.InRange) :
    ∃ g, ((w.run supply moves).programs i).Follows supply (compileProtocol code)
        (fun outcome g => ∀ code n, outcome = .error (.contention code n) →
          n = max 1 attempts ∧ n ≤ g.conflicts) g ∧
      w.Remembers supply code i moves g := by
  have hfollows : (w.programs i).Follows supply (compileProtocol code)
      (fun outcome g => ∀ code n, outcome = .error (.contention code n) →
        n = max 1 attempts ∧ n ≤ g.conflicts) ⟨none, none, 0⟩ := by
    rw [hi]
    refine Program.Follows.imp (Service.follows_compileWithin (max 1 attempts)
      (Nat.le_add_left ..)) fun outcome g h code n he => ?_
    subst he
    obtain ⟨rfl, hle⟩ := h code n rfl
    exact ⟨rfl, hle⟩
  have hbefore : ∀ moves m, (w.run supply (moves ++ [m])).state.store.InRange →
      (w.run supply moves).state.store.InRange :=
    fun moves m h => h.of_grows (Remembers.grows_concat w moves m)
  obtain ⟨g, hg, h⟩ := run_follows
    (P := fun moves g => (w.run supply moves).state.store.InRange →
      w.Remembers supply code i moves g)
    hfollows (fun _ => .start w)
    (fun moves m g h hm hrange => (h (hbefore moves m hrange)).other hm)
    (fun moves g c next h hp hallows hrange =>
      (h (hbefore moves _ hrange)).call (hbefore moves _ hrange) hp hallows) moves
  exact ⟨g, hg, h hrange⟩

/-- **Contention is only reported for real contention.** Let a compile call run among any calls of
other clients and changes of the design, and let the version numbers stay in range. If an insertion
of the call is refused, others have inserted a version of its route since the last call before it,
which read the latest version of that route. If the call gives up, others have inserted as many
versions of the route as the call has attempts. A call that runs alone does not give up. -/
theorem contention_inserted (supply : Supply) {w : World ι (Except RequestError RouteVersion)}
    {code : String} {attempts : Nat} (hi : w.programs i = (Service.compile code attempts).run) :
    (∀ moves draft expected next e, (w.run supply moves).state.store.InRange →
      (w.run supply moves).programs i = .call (.insertVersion draft expected) next →
      (MemoryState.answer supply (.insertVersion draft expected)
        (w.run supply moves).state).1 = .error e →
      ∃ r earlier between, (w.run supply moves).state.store.findRouting code = some r ∧
        draft.routingId = r.id ∧ moves = earlier ++ .advance i :: between ∧
        (w.run supply earlier).HasRead supply i r.id expected between ∧
        0 < ((w.run supply earlier).move supply (.advance i)).insertedByOthers supply i r.id
          between) ∧
    (∀ moves code' n, (w.run supply moves).state.store.InRange →
      (w.run supply moves).programs i = .done (.error (.contention code' n)) →
      n = max 1 attempts ∧ ∃ r, (w.run supply moves).state.store.findRouting code = some r ∧
        n ≤ w.insertedByOthers supply i r.id moves) ∧
    (w.state.store.InRange → ∀ code' n,
      ((Service.compile code attempts).run.run (MemoryState.backend supply) w.state).1 ≠
        .error (.contention code' n)) := by
  refine ⟨fun moves draft expected next e hrange hp hanswer => ?_,
    fun moves code' n hrange hp => ?_, fun hrange code' n h => ?_⟩
  · obtain ⟨g, hfollows, hg⟩ := compile_remembers supply hi hrange
    rw [hp] at hfollows
    obtain ⟨r, earlier, between, hr, hid, hmoves, hhas, -, hpos⟩ :=
      hg.inserted hrange hfollows.1 hanswer
    exact ⟨r, earlier, between, hr, hid, hmoves, hhas, hpos⟩
  · obtain ⟨g, hfollows, hg⟩ := compile_remembers supply hi hrange
    rw [hp] at hfollows
    obtain ⟨rfl, hle⟩ := hfollows code' n rfl
    refine ⟨rfl, ?_⟩
    rcases hg.conflicts with hzero | ⟨r, hr, hconflicts⟩
    · omega
    · exact ⟨r, hr, Nat.le_trans hle hconflicts⟩
  · obtain ⟨outcome, t, hrun, hends⟩ := Service.compile_run_alone supply w.state code attempts
    rw [hrun] at h
    obtain rfl : outcome = _ := h
    generalize t.store = store at hends
    cases hends with
    | numberTaken r hr hsteps htaken =>
      exact htaken (MemoryStore.findVersion_nextVersionNo hrange r.id)

end World

/-! ## A version that is inserted directly -/

namespace DirectInsertion

open SingleStep (supply)

/-- A version that another client inserts without compiling the route. -/
def draft : VersionDraft where
  routingId := "r1"
  versionNo := 7
  status := .ready
  snapshot := .ofJson (.obj [])
  report := none
  compiledAt := ⟨0, 0⟩

/-- A call with one attempt that has not begun. -/
def world : World Unit (Except RequestError RouteVersion) :=
  .compiling (.start (SingleStep.store none)) (fun _ => "R1") fun _ => 1

/-- The call has read the latest version and the clock when the version is inserted. -/
def moves : List (Move Unit) :=
  List.replicate 5 (.advance ()) ++ [.call (.insertVersion draft none)]

/-- The version of the call itself is refused. -/
theorem refused : ∃ draft expected next e,
    (world.run supply moves).programs () = .call (.insertVersion draft expected) next ∧
      (MemoryState.answer supply (.insertVersion draft expected)
        (world.run supply moves).state).1 = .error e :=
  ⟨((SingleStep.store none).compilation SingleStep.routing).draft "r1" none ⟨0, 0⟩, none, _, _,
    by with_unfolding_all rfl, by with_unfolding_all rfl⟩

/-- The call gives up after its only attempt. -/
theorem gives_up : (world.run supply (moves ++ [.advance ()])).programs () =
    .done (.error (.contention "R1" 1)) := by
  with_unfolding_all rfl

end DirectInsertion

/-- A call with one attempt gives up because of the version that was inserted after it had read the
latest one. -/
theorem World.contention_inserted_directInsertion :
    (∃ routingId earlier between, DirectInsertion.moves = earlier ++ .advance () :: between ∧
      0 < ((DirectInsertion.world.run SingleStep.supply earlier).move SingleStep.supply
        (.advance ())).insertedByOthers SingleStep.supply () routingId between) ∧
    ∃ r, (DirectInsertion.world.run SingleStep.supply
        (DirectInsertion.moves ++ [.advance ()])).state.store.findRouting "R1" = some r ∧
      1 ≤ DirectInsertion.world.insertedByOthers SingleStep.supply () r.id
        (DirectInsertion.moves ++ [.advance ()]) := by
  obtain ⟨hconflict, hgivesUp, -⟩ :=
    contention_inserted SingleStep.supply (w := DirectInsertion.world) rfl
  obtain ⟨draft, expected, next, e, hp, hanswer⟩ := DirectInsertion.refused
  obtain ⟨r, earlier, between, -, -, hmoves, -, hpos⟩ :=
    hconflict _ draft expected next e (by decide +kernel) hp hanswer
  exact ⟨⟨r.id, earlier, between, hmoves, hpos⟩,
    (hgivesUp _ "R1" 1 (by decide +kernel) DirectInsertion.gives_up).2⟩

end RoutePlan
