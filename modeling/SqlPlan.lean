import SqlPlan.Execution.Pool
import SqlPlan.Number.Reading
import SqlPlan.Plan.Build
import SqlPlan.Plan.Data
import SqlPlan.Proofs.Aliasing
import SqlPlan.Proofs.Collecting
import SqlPlan.Proofs.Dialects
import SqlPlan.Proofs.DistinctOrder
import SqlPlan.Proofs.Enclosing
import SqlPlan.Proofs.Equality
import SqlPlan.Proofs.Identifiers
import SqlPlan.Proofs.Indenting
import SqlPlan.Proofs.JoinNames
import SqlPlan.Proofs.KnownColumns
import SqlPlan.Proofs.Membership
import SqlPlan.Proofs.Merging
import SqlPlan.Proofs.Numbers
import SqlPlan.Proofs.OrderNames
import SqlPlan.Proofs.Origins
import SqlPlan.Proofs.OutputNames
import SqlPlan.Proofs.Positions
import SqlPlan.Proofs.Quoting
import SqlPlan.Proofs.Reading
import SqlPlan.Proofs.RelationalJoin
import SqlPlan.Proofs.Renaming
import SqlPlan.Proofs.RowSteps
import SqlPlan.Proofs.SelectedNames
import SqlPlan.Proofs.Shape
import SqlPlan.Proofs.Substituting
import SqlPlan.Proofs.Summaries
import SqlPlan.Proofs.Tables
import SqlPlan.Proofs.Unsupported
