import Scriptlet.Proofs.Session

namespace Scriptlet

abbrev Frame := List (String × Value)

/-- The frames stand with the innermost first. -/
structure FrameStack (σ : Type) where
  sink : σ
  frames : List Frame := [[]]
  natives : Array NativeBody := #[]

def Frame.assign? (name : String) (v : Value) : Frame → Option Frame
  | [] => none
  | (n, w) :: f =>
    if name == n then some ((n, v) :: f) else (Frame.assign? name v f).map ((n, w) :: ·)

namespace FrameStack

variable {σ α : Type}

def lookup? (name : String) (frames : List Frame) : Option Value :=
  frames.findSome? (·.lookup name)

def assign? (name : String) (v : Value) : List Frame → Option (List Frame)
  | [] => none
  | f :: fs =>
    match f.assign? name v with
    | some f => some (f :: fs)
    | none => (assign? name v fs).map (f :: ·)

def read (x : Ident) : Step (FrameStack σ) Value :=
  fun s =>
    match lookup? x.name s.frames with
    | some v => (.ok v, s)
    | none => Step.fail (.undefinedVariable x.name) x.span s

def write (x : Ident) (v : Value) : Step (FrameStack σ) Unit :=
  fun s =>
    match assign? x.name v s.frames with
    | some frames => (.ok (), { s with frames })
    | none => Step.fail (.undefinedVariable x.name) x.span s

def declare (name : String) (v : Value) : Step (FrameStack σ) Value :=
  fun s => (.ok v, { s with frames := s.frames.modifyHead ((name, v) :: ·) })

/-- Runs a block with an empty frame on top, which is gone afterwards however the block ends. -/
def framed (x : Step (FrameStack σ) α) : Step (FrameStack σ) α :=
  fun s =>
    let r := x { s with frames := [] :: s.frames }
    (r.1, { r.2 with frames := r.2.frames.tail })

def println [Sink σ] (line : String) : Step (FrameStack σ) Unit :=
  fun s => (.ok (), { s with sink := Sink.println line s.sink })

def invoke (id : NativeId) (name : String) (args : List Value) (paren : Span) :
    Step (FrameStack σ) Value :=
  fun s =>
    let body : NativeBody := s.natives.getD id fun _ => .ok .nil
    Step.blame paren ((body args).mapError (Fault.nativeFailure name)) s

def call : Nat → Callable → List Value → Span → Step (FrameStack σ) Value
  | 0, _, _, _ => Step.outOfFuel
  | _ + 1, c, args, paren =>
    if args.length = c.arity then
      match c with
      | .native id name _ => invoke id name args paren
      | .function _ _ => Step.fail .notCallable paren
    else Step.fail (.arityMismatch c.arity args.length) paren

def evalExpr : Nat → Expr → Step (FrameStack σ) Value
  | 0, _ => Step.outOfFuel
  | n + 1, e =>
    match e with
    | .literal a _ => pure (Value.ofLiteral a)
    | .grouping e _ => evalExpr n e
    | .var x _ => read x
    | .assign x e _ => do
      let v ← evalExpr n e
      write x v
      return v
    | .logical l op r _ => do
      let v ← evalExpr n l
      if op.node.isSettledBy v then return v else evalExpr n r
    | .conditional c t e _ => do
      let v ← evalExpr n c
      if v.isTruthy then evalExpr n t else evalExpr n e
    | .unary op e _ => do
      let v ← evalExpr n e
      Step.blame op.span (op.node.apply v)
    | .binary l op r _ => do
      let v ← evalExpr n l
      let w ← evalExpr n r
      Step.blame op.span (op.node.apply v w)
    | .call f args paren _ => do
      match ← evalExpr n f with
      | .callable c => do
        let vs ← args.mapM fun a => evalExpr n a
        call n c vs paren
      | _ => Step.fail .notCallable paren

variable [Sink σ]

def execStmt : Nat → Stmt → Step (FrameStack σ) Value
  | 0, _ => Step.outOfFuel
  | n + 1, s =>
    match s with
    | .expr e _ => evalExpr n e
    | .print e _ => do
      let v ← evalExpr n e
      println v.text
      return .nil
    | .declare x none _ => declare x.name .nil
    | .declare x (some e) _ => do
      let v ← evalExpr n e
      declare x.name v
    | .block body _ => framed (body.foldlM (fun _ s => execStmt n s) .nil)
    | .ifElse c t e _ => do
      let v ← evalExpr n c
      let _ ← (if v.isTruthy then execStmt n t else e.elim (pure .nil) (execStmt n))
      return .nil
    | .whileLoop c body span => do
      let v ← evalExpr n c
      if v.isTruthy then
        let _ ← execStmt n body
        execStmt n (.whileLoop c body span)
      else
        return .nil
    | .forLoop _ _ _ _ span => Step.fail (.unsupported "For loops") span
    | .function _ _ _ _ span => Step.fail (.unsupported "Functions") span

def run (fuel : Nat) (program : List Stmt) : Step (FrameStack σ) Value :=
  program.foldlM (fun _ s => execStmt fuel s) .nil

def equip (s : FrameStack σ) (natives : List HostFunction) : FrameStack σ :=
  natives.foldl (fun s f =>
    { s with
      natives := s.natives.push f.body
      frames := s.frames.modifyHead
        ((f.name, .callable (.native s.natives.size f.name f.arity)) :: ·) }) s

def runs (fuel : Nat) : List (List Stmt) → FrameStack σ → List (Sight σ)
  | [], _ => []
  | program :: programs, s =>
    let r := run fuel program s
    ⟨r.1, r.2.sink, (r.2.frames.getLastD []).map Prod.fst⟩ :: runs fuel programs r.2

end FrameStack

end Scriptlet
