import RoutePlan.Proofs.Concurrency.Protocol
import RoutePlan.Service.Compile

/-!
# The calls of a compilation

A compile call reads, and it inserts versions. It makes no other calls, so it leaves the steps, the
overrides and the specs of a store alone (`Service.onlyCalls_compileWithin`).
-/

namespace RoutePlan

/-- The call does not write overrides. -/
def Call.SparesInputs : Call → Prop
  | insertOverride _ => False
  | updateOverride _ _ => False
  | _ => True

namespace Service

/-- What a compilation reads writes no overrides. -/
theorem onlyCalls_readCompilation (r : Routing) : OnlyCalls Call.SparesInputs (readCompilation r) :=
  .bind (onlyCalls_call trivial) fun _ => onlyCalls_ite (onlyCalls_throw _) <|
    .bind (onlyCalls_call trivial) fun _ =>
      .bind (onlyCalls_ite (onlyCalls_pure _) (onlyCalls_call trivial)) fun _ => onlyCalls_pure _

/-- Settling the version of a route writes no overrides. -/
theorem onlyCalls_settleVersion (r : Routing) (c : Compilation) :
    OnlyCalls Call.SparesInputs (settleVersion r c) := by
  refine .bind (onlyCalls_call trivial) fun prior => ?_
  split
  · exact onlyCalls_pure _
  · exact .bind onlyCalls_now fun _ => onlyCalls_call trivial

/-- Whatever number of attempts is left, a compile call writes no overrides. -/
theorem onlyCalls_compileWithin (code : String) (attempts left : Nat) :
    OnlyCalls Call.SparesInputs (compileWithin code attempts left) := by
  induction left with
  | zero => exact onlyCalls_throw _
  | succ left ih =>
    have hattempt : OnlyCalls Call.SparesInputs (compileOnce code) :=
      .bind (onlyCalls_loadRouting trivial) fun r => .bind (onlyCalls_readCompilation r) fun c =>
        onlyCalls_settleVersion r c
    exact hattempt.tryCatch fun _ => onlyCalls_ite ih (onlyCalls_throw _)

end Service
end RoutePlan
