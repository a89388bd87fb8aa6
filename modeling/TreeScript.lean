import TreeScript.Command.Execute
import TreeScript.Declaration
import TreeScript.Main
import TreeScript.Proofs.Eval.Congruence
import TreeScript.Proofs.Eval.Ordinary
import TreeScript.Proofs.Eval.DepthGuard
import TreeScript.Proofs.Eval.Course
import TreeScript.Proofs.Store.Sound
import TreeScript.Proofs.Store.Scopes
import TreeScript.Proofs.Value.Order
import TreeScript.Proofs.Eval.Soundness
import TreeScript.Proofs.Store.Show
import TreeScript.Proofs.Eval.Settling
import TreeScript.Proofs.Eval.Operators
import TreeScript.Proofs.Eval.Isolation
import TreeScript.Proofs.Eval.Unwinding
import TreeScript.Proofs.Eval.Nodes
import TreeScript.Proofs.Eval.Origin
import TreeScript.Proofs.Eval.Returns
import TreeScript.Proofs.Eval.ClosedSink
import TreeScript.Proofs.Eval.Account
import TreeScript.Proofs.Eval.Rewriting
import TreeScript.Proofs.Eval.Flattening
import TreeScript.Proofs.Eval.DeadCode
import TreeScript.Proofs.Store.Renaming
import TreeScript.Proofs.Eval.Renaming
import TreeScript.Proofs.Form.Fields
import TreeScript.Proofs.Syntax.Complete
import TreeScript.Proofs.Form.Encoding
import TreeScript.Proofs.Form.Accepted
import TreeScript.Proofs.Form.Given
import TreeScript.Proofs.Form.Nodes
import TreeScript.Proofs.Form.Keys
import TreeScript.Proofs.Fixture.Pool
import TreeScript.Proofs.Command.Testing
import TreeScript.Proofs.Command.Printing
import TreeScript.Proofs.Store.Unfolding
import TreeScript.Proofs.Store.History
import TreeScript.Proofs.Eval.Objects
import TreeScript.Proofs.Text.Unquoting
import TreeScript.Proofs.Text.Symbolic
import TreeScript.Proofs.Syntax.Readback
import TreeScript.Proofs.Text.Bytes
import TreeScript.Proofs.Value.Agreement
import TreeScript.Proofs.Value.Locating
import TreeScript.Proofs.Eval.Binding
