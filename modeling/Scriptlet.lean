import Scriptlet.Diagnostic.Json
import Scriptlet.Eval.Fuel
import Scriptlet.Interpreter
import Scriptlet.Proofs.BlockTransparency
import Scriptlet.Proofs.BodyScopes
import Scriptlet.Proofs.CallDepth
import Scriptlet.Proofs.ConfigTexts
import Scriptlet.Proofs.Confinement
import Scriptlet.Proofs.DepthLimit
import Scriptlet.Proofs.DiagnosticTexts
import Scriptlet.Proofs.Evaluation
import Scriptlet.Proofs.Faults
import Scriptlet.Proofs.GlobalRoot
import Scriptlet.Proofs.HostUse
import Scriptlet.Proofs.LexicalStability
import Scriptlet.Proofs.ListedNames
import Scriptlet.Proofs.NativeRegistration
import Scriptlet.Proofs.Parentheses
import Scriptlet.Proofs.Provenance
import Scriptlet.Proofs.RaisedStore
import Scriptlet.Proofs.RecursionKnot
import Scriptlet.Proofs.Renaming
import Scriptlet.Proofs.SessionMoments
import Scriptlet.Proofs.SinkIndependence
import Scriptlet.Proofs.StackRefinement
import Scriptlet.Proofs.StoreEvents
import Scriptlet.Proofs.Termination
import Scriptlet.Proofs.Tokens
import Scriptlet.Proofs.TopLevel
import Scriptlet.Proofs.VariableEffects
import Scriptlet.Store.Lemmas
import Scriptlet.Syntax.Equality
import Scriptlet.Syntax.Node
import Scriptlet.Proofs.NameResolution
import Scriptlet.Proofs.SourceLines
import Scriptlet.Proofs.ParameterBinding
import Scriptlet.Proofs.CallableOrigins
import Scriptlet.Proofs.FunctionIdentity
import Scriptlet.Proofs.DoubleValues
import Scriptlet.Proofs.FloatBits
import Scriptlet.Proofs.SpanCoverage
import Scriptlet.Proofs.DiagnosticLayout
import Scriptlet.Proofs.NumberTexts
import Scriptlet.Proofs.TreeEquality
