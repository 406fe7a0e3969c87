import RoutePlan.Main
import RoutePlan.Relational.Fixture
import RoutePlan.Store.Disturbance
import RoutePlan.Proofs.Compile.Consistency
import RoutePlan.Proofs.Compile.Contention
import RoutePlan.Proofs.Compile.Convergence
import RoutePlan.Proofs.Compile.Executable
import RoutePlan.Proofs.Compile.Freshness
import RoutePlan.Proofs.Compile.History
import RoutePlan.Proofs.Compile.Moments
import RoutePlan.Proofs.Compile.Reuse
import RoutePlan.Proofs.Compile.RowOrder
import RoutePlan.Proofs.Compile.Violations
import RoutePlan.Proofs.Design.Grouping
import RoutePlan.Proofs.Design.Import
import RoutePlan.Proofs.Json.SameData
import RoutePlan.Proofs.Override.Inert
import RoutePlan.Proofs.Override.PatchAlgebra
import RoutePlan.Proofs.Override.Resync
import RoutePlan.Proofs.Relational.Advancing
import RoutePlan.Proofs.Relational.Conversions
import RoutePlan.Proofs.Relational.Parity
import RoutePlan.Proofs.Relational.SingleInsertion
import RoutePlan.Proofs.Store.Versions
import RoutePlan.Proofs.Version.UnsignedEdit
