import Switchboard.Sample.Methods

/-!
# A gallery of methods

One method for each thing that methods can do, to register under names of one's own: look at the
caller, set cookies, call other methods by name or in place, offer canned output, check
themselves, fail, take time, and have an output that only the binary form can write.
-/

namespace Switchboard.Sample.Gallery

/-! ## Inputs and outputs -/

/-- Two numbers, each of which may be left out. -/
structure Exchange where
  a : Int64
  b : Int64
  deriving DecidableEq, Repr

instance : Payload Exchange where
  shape := .record "PairD" (.field "a" .int .defaulted (.field "b" .int .defaulted .done))
  toData e := (e.a, e.b, ())
  ofData := fun (a, b, _) => ⟨a, b⟩
  ofData_toData _ := rfl

/-- A sentence. -/
structure Message where
  message : String
  deriving DecidableEq, Repr

instance : Payload Message where
  shape := .record "Message" (.field "message" .text .required .done)
  toData m := (m.message, ())
  ofData := fun (message, _) => ⟨message⟩
  ofData_toData _ := rfl

/-- A record with a field of each kind. -/
structure Profile where
  name : String
  tags : List String
  number : Option Int64
  marks : Dict String Bool
  note : String

instance : Payload Profile where
  shape := .record "Rich" (.field "name" .text .required (.field "tags" (.list .text) .required
    (.field "opt" (.option .int) .required (.field "map" (.dict .flag) .required
      (.field "note" .text .defaulted .done)))))
  toData p := (p.name, p.tags, p.number, p.marks, p.note, ())
  ofData := fun (name, tags, number, marks, note, _) => ⟨name, tags, number, marks, note⟩
  ofData_toData _ := rfl

/-- A table of numbers. Its keys are cells, which the textual form cannot write. -/
structure Grid where
  cells : Dict Cell Int64

instance : Payload Grid where
  shape := .grid .int
  toData g := g.cells
  ofData cells := ⟨cells⟩
  ofData_toData _ := rfl

/-- What to do before looking at the context. -/
structure Errand where
  /-- Cookie lines that are already complete. -/
  lines : List String
  /-- Names and values of cookies. -/
  cookies : List (String × String)
  /-- Whether to fail in the end. -/
  fails : Bool
  deriving DecidableEq, Repr

instance : Payload Errand where
  shape := .record "CtxIn" (.field "push" (.list .text) .defaulted
    (.field "set" (.list (.pair .text .text)) .defaulted (.field "fail" .flag .defaulted .done)))
  toData e := (e.lines, e.cookies, e.fails, ())
  ofData := fun (lines, cookies, fails, _) => ⟨lines, cookies, fails⟩
  ofData_toData _ := rfl

/-- What a method sees of its caller. -/
structure Sight where
  peer : String := ""
  referrer : String := ""
  cookies : Dict String String := ∅
  headers : Dict String String := ∅
  args : Dict String String := ∅
  internal : Bool := false
  session : Option String := none

instance : Payload Sight where
  shape := .record "CtxOut" (.field "peer" .text .required (.field "referrer" .text .required
    (.field "cookies" (.dict .text) .required (.field "headers" (.dict .text) .required
      (.field "args" (.dict .text) .required (.field "internal" .flag .required
        (.field "session" (.option .text) .required .done)))))))
  toData s := (s.peer, s.referrer, s.cookies, s.headers, s.args, s.internal, s.session, ())
  ofData := fun (peer, referrer, cookies, headers, args, internal, session, _) =>
    ⟨peer, referrer, cookies, headers, args, internal, session⟩
  ofData_toData _ := rfl

/-- Whom to call, in which way, and with what. -/
structure Relay where
  method : String
  way : String
  a : Int64
  b : Int64
  deriving DecidableEq, Repr

instance : Payload Relay where
  shape := .record "CascIn" (.field "op" .text .required (.field "kind" .text .required
    (.field "a" .int .defaulted (.field "b" .int .defaulted .done))))
  toData r := (r.method, r.way, r.a, r.b, ())
  ofData := fun (method, way, a, b, _) => ⟨method, way, a, b⟩
  ofData_toData _ := rfl

/-- A function with an input that shows how to call it, under a name. -/
def exhibit {α β : Type} [Payload α] [Payload β] (f : α → Action (Except String β)) (sample : α)
    (name : String) : Handler :=
  ⟨name, .ofFunction f, Payload.toData sample⟩

/-! ## Arithmetic -/

/-- Adds two numbers, unless the caller asks it to fail. -/
def addUnlessAsked (p : Pair) : Action (Except String Int64) := do
  if (← Action.context).args.contains "explode" then return .error "asked to fail"
  else return Sample.add p

/-- What the method that adds finds about itself. -/
def checkSum : Except String Int64 → Verdict × String
  | .ok 11 => (.passed, "")
  | _ => (.failed, "1 + 10 is wrong\n")

/-- The method that adds two numbers. It has canned output of every kind that is a number, fails
to make one of any other kind, and does without for the kind that says so. -/
def sum : Method :=
  { Method.ofFunction addUnlessAsked with
    mock := fun kind _ =>
      .pure (if kind = "none" then .unimplemented
        else match Text.readInt64 kind.toList with
          | some n => .success n
          | none => .failure)
    validate := return checkSum (← addUnlessAsked ⟨1, 10⟩) }

/-- Adds two numbers. -/
def add (name : String) : Handler := ⟨name, sum, Payload.toData (⟨1, 10⟩ : Pair)⟩

/-- Subtracts a number from another. -/
def subtract : String → Handler := exhibit (fun p => .pure (Sample.subtract p)) ⟨10, 1⟩

/-- Adds three numbers by calling another method twice. -/
def add3 : String → Handler := exhibit Sample.add3 ⟨1, 2, 3⟩

/-- Exchanges two numbers. -/
def swap : String → Handler :=
  exhibit (fun (e : Exchange) => .pure (.ok (⟨e.b, e.a⟩ : Exchange))) ⟨1, 2⟩

/-! ## Plain answers -/

/-- Answers. Its calls are not recorded, and need no input. -/
def ping (name : String) : Handler :=
  ⟨name, { Method.ofFunction fun (_ : Empty) => .pure (.ok "pong") with
    canRecord := false, allowEmpty := true }, Payload.toData ({} : Empty)⟩

/-- Fails with the sentence it is given. -/
def refuse : String → Handler :=
  exhibit (fun (m : Message) => .pure (.error m.message : Except String Int64))
    ⟨"<no> & \"why\""⟩

/-- Answers its input. -/
def echo : String → Handler :=
  exhibit (fun (p : Profile) => .pure (.ok p))
    ⟨"n", ["x", "y<z>"], none, Dict.ofList [("k", true)], ""⟩

/-- Answers with what the textual form cannot write. -/
def grid : String → Handler :=
  exhibit (fun (_ : Empty) => .pure (.ok (⟨Dict.ofList [(⟨1, 2⟩, 3)]⟩ : Grid))) {}

/-- Fails, and knows it. -/
def broken (name : String) : Handler :=
  ⟨name, { Method.ofFunction fun (_ : Pair) => .pure (.error "broken" : Except String Int64) with
    validate := .pure (.failed, "always broken\n") }, Payload.toData (⟨1, 10⟩ : Pair)⟩

/-- Takes as many milliseconds as it is told. -/
def sleep : String → Handler :=
  exhibit (fun (ms : UInt64) => do
    Action.wait ms.toNat
    return .ok ms) 10

/-! ## The caller -/

/-- What a context shows. -/
def Sight.of (c : Context) : Sight where
  peer := c.connection.peer.toText
  referrer := c.referrer
  cookies := c.cookies
  headers := c.headers.entries
  args := c.args
  internal := c.internal
  session := c.session?

/-- Sets each cookie for the whole server. -/
def setCookies : List (String × String) → Action Unit
  | [] => pure ()
  | (name, value) :: rest => do
    Action.setCookie name value { path := some "/" }
    setCookies rest

/-- Adds each complete line. -/
def pushLines : List String → Action Unit
  | [] => pure ()
  | line :: rest => do
    Action.pushCookie line
    pushLines rest

/-- Sets the cookies that it is asked to set, and tells what it sees. -/
def lookAround (e : Errand) : Action (Except String Sight) := do
  pushLines e.lines
  setCookies e.cookies
  if e.fails then return .error "ctx failed"
  else return .ok (Sight.of (← Action.context))

/-- The method that looks around. Asked for canned output, it leaves a cookie before it answers. -/
def inspection : Method :=
  { Method.ofFunction lookAround with
    allowEmpty := true
    mock := fun kind _ => do
      Action.setCookie "mocked" kind {}
      if kind = "fall" then return .unimplemented
      else if kind = "bad" then return .failure
      else return .success (Payload.toData ({ referrer := "mock " ++ kind } : Sight)) }

/-- Looks around. -/
def inspect (name : String) : Handler :=
  ⟨name, inspection, Payload.toData (⟨[], [], false⟩ : Errand)⟩

/-! ## Calls of other methods -/

/-- A number for people to read. -/
def showNumber (n : Int64) : String := Text.signedDecimal n.toInt

/-- Calls the method that a relay names in the way that it says. -/
def callee (r : Relay) : Action (Except String String) :=
  let pair : Pair := ⟨r.a, r.b⟩
  match r.way with
  | "pair_i64" => do return (← Action.call r.method pair).map showNumber
  | "pair_str" => Action.call r.method pair
  | "empty_str" => Action.call r.method ({} : Empty)
  | "ctx" => do
    let errand : Errand :=
      ⟨["pushed=by callee"], [("from callee", showNumber r.a)], r.b != 0⟩
    let seen : Except String Sight ← Action.call r.method errand
    return seen.map fun s => s.referrer ++ " " ++ ",".intercalate s.args.keys
  | "to_add" => do return (← sum.cascadeTo r.method (Payload.toData pair)).map showNumber
  | way => .pure (.error ("unknown cascade kind " ++ way))

/-- Calls another method, and leaves a cookie before that and another one if all went well. -/
def callOther (r : Relay) : Action (Except String String) := do
  Action.setCookie "before" "1" {}
  match ← callee r with
  | .error message => return .error message
  | .ok text =>
    Action.setCookie "after" "1" {}
    return .ok text

/-- Calls another method. -/
def relay : String → Handler := exhibit callOther ⟨"ADD", "pair_i64", 1, 2⟩

end Switchboard.Sample.Gallery
