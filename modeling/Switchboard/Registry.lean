import Switchboard.Forward
import Switchboard.Text.Quoted

/-!
# Registries

Methods are registered for server identities, and a server hosts the methods of the identities
it is given and those that all servers share. A name is seen by an identity if it is registered
for it or for all, in any case; a registration is refused if the name is seen already, so no
entry is ever replaced, and nothing is registered by a registration that is refused.
-/

namespace Switchboard

/-! ## Names -/

/-- Why a registration is refused. -/
inductive RegistryFault
  | emptyName
  | blankInName (name : String)
  | underscoreInFront (name : String)
  | reserved (name : String)
  | duplicate (identity name : String)
  deriving DecidableEq, Repr

/-- The sentence about a refusal. -/
def RegistryFault.message : RegistryFault → String
  | .emptyName => "method name must not be empty"
  | .blankInName name => "method name contains whitespace: " ++ Text.quoted name
  | .underscoreInFront name => "method name must not start with '_': " ++ name
  | .reserved name => "method name is reserved: " ++ name
  | .duplicate identity name =>
    "method " ++ name ++ " already registered for identity " ++ identity

namespace Registry

/-- The identity whose methods all servers host. -/
def sharedIdentity : String := "all"

/-- The names that the HTTP side claims. -/
def reservedNames : List String := ["GET", "POST", "URL"]

/-- Refuses what cannot be the name of a method. -/
def checkName (name : String) : Except RegistryFault Unit :=
  if name = "" then .error .emptyName
  else if name.toList.any Text.isBlank then .error (.blankInName name)
  else if name.toList.head? = some '_' then .error (.underscoreInFront name)
  else if name ∈ reservedNames then .error (.reserved name)
  else .ok ()

/-- The identities in a list with commas between them. -/
def splitIdentities (list : String) : List String :=
  (((Text.pieces ',' list.toList).map Text.trim).filter (!·.isEmpty)).map String.ofList

/-! ## Registering -/

/-- What is registered under a name. -/
structure Entry where
  handler : Handler
  /-- Where the method is, if it is a method of another server. -/
  forward : Option ForwardEntry

/-- The entries of an identity by lower-case name. -/
abbrev Namespace := Dict String Entry

/-- The namespaces that registrations have filled. -/
structure Builder where
  identities : Dict String Namespace

namespace Builder

/-- The builder in which nothing is registered. -/
def empty : Builder := ⟨∅⟩

/-- Whether a key is registered for an identity itself. -/
def has (b : Builder) (identity key : String) : Bool :=
  match b.identities.get? identity with
  | some space => space.contains key
  | none => false

/-- The identity for which a key is registered already, among those whose methods an identity
sees; all identities see those of all, and what is for all is seen by every identity. -/
def conflict (b : Builder) (identity key : String) : Option String :=
  if identity = sharedIdentity then b.identities.keys.find? (b.has · key)
  else [identity, sharedIdentity].find? (b.has · key)

/-- The builder with an entry put into the namespace of an identity. -/
def put (b : Builder) (key : String) (entry : Entry) (identity : String) : Builder :=
  ⟨b.identities.insert identity (((b.identities.get? identity).getD ∅).insert key entry)⟩

/-- Registers an entry under a name for the identities in a list. -/
def insert (b : Builder) (identities name : String) (entry : Entry) :
    Except RegistryFault Builder :=
  match checkName name with
  | .error fault => .error fault
  | .ok _ =>
    let targets := splitIdentities identities
    let key := Text.lower name
    match targets.findSome? (b.conflict · key) with
    | some identity => .error (.duplicate identity name)
    | none => .ok (targets.foldl (·.put key entry ·) b)

/-- Registers a method. -/
def register (b : Builder) (identities : String) (handler : Handler) :
    Except RegistryFault Builder :=
  b.insert identities handler.name ⟨handler, none⟩

/-- Registers a method that stands for one of another server. -/
def registerForward (b : Builder) (identities name : String) (directory : Directory)
    (entry : ForwardEntry) (input output : Shape) (sample : input.Data) :
    Except RegistryFault Builder :=
  b.insert identities name
    ⟨⟨name, Forward.method directory entry input output, sample⟩, some entry⟩

end Builder

end Registry

/-! ## What a server hosts -/

/-- The methods that a server hosts. -/
structure Registry where
  /-- The identities whose methods these are. -/
  identities : List String
  /-- The entries by lower-case name. -/
  methods : Registry.Namespace

namespace Registry

/-- The entries with those of a namespace whose names are new. -/
def addNew (methods space : Namespace) : Namespace :=
  space.toList.foldl (fun ms e => ms.insertIfNew e.1 e.2) methods

/-- The identities in a list, and the shared one. -/
def selectIdentities (list : String) : List String :=
  let selected := splitIdentities list
  if sharedIdentity ∈ selected then selected else selected ++ [sharedIdentity]

/-- The methods of the identities in a list and of all. -/
def Builder.build (b : Builder) (identities : String) : Registry :=
  let selected := selectIdentities identities
  ⟨selected, (selected.filterMap b.identities.get?).foldl addNew ∅⟩

/-- What is hosted under a name in any case. -/
def entry? (r : Registry) (name : String) : Option Entry := r.methods.get? (Text.lower name)

/-- The method under a name in any case. -/
def get? (r : Registry) (name : String) : Option Handler := (r.entry? name).map (·.handler)

/-- Whether there is a method under a name in any case. -/
def contains (r : Registry) (name : String) : Bool := (r.entry? name).isSome

/-- The number of methods. -/
def size (r : Registry) : Nat := r.methods.size

/-- Whether there are no methods. -/
def isEmpty (r : Registry) : Bool := r.methods.isEmpty

/-- The names in the spelling in which they were registered, in order. -/
def names (r : Registry) : List String :=
  (r.methods.values.map (·.handler.name)).mergeSort fun a b => decide (a ≤ b)

/-- Where the method under a name is, if it is a method of another server. -/
def forward? (r : Registry) (name : String) : Option ForwardEntry :=
  (r.entry? name).bind (·.forward)

/-! ## Routing rules for a proxy -/

/-- The rule of an entry. -/
def proxyRule (e : Entry) : String :=
  let name := e.handler.name
  match e.forward with
  | some f =>
    "ProxyPass /" ++ name ++ " balancer://" ++ f.identity ++ "_cluster/" ++ f.method ++ "\n"
  | none => "ProxyPass /" ++ name ++ " $backend/" ++ name ++ "\n"

/-- Whether a name is left out of the rules. -/
def hidden (name : String) : Bool :=
  name.toList.head? = some '.' || name.toList.head? = some '_'

/-- The rules that lead each name to this server or to the one whose method it is. -/
def proxyConfig (r : Registry) (port : Nat) : String :=
  let shown := r.methods.values.reverse.filter fun e => !hidden e.handler.name
  String.join (shown.map proxyRule) ++
    "ProxyPass /URL http://localhost:" ++ Text.decimal port ++ "/URL\n"

end Registry

end Switchboard
