import WireMirage.Registry.Operations
import WireMirage.Auth.Records

/-!
Group specs, and the operations of the API that create routes and import groups.
An error of the API is kept as what its message is made of.
-/
namespace WireMirage

/-! Group specs -/

inductive SpecError where
  | missingName
  | emptyDuration
  | unitWithoutNumber (duration : String) (unit : Char)
  | numberTooLarge (duration number : String)
  | unknownUnit (duration : String) (unit : Char)
  | segmentOverflows (duration : String) (n : Nat) (unit : Char)
  | totalOverflows (duration : String)
  | trailingNumber (duration number : String)
  | methodAndMethods (idx : Nat) (path : String)
  | missingMethod (idx : Nat) (path : String)
  | sourceAndSourceFile (idx : Nat) (path : String)
  | sourceFileUnresolved (idx : Nat) (path : String)
  | missingSource (idx : Nat) (path : String)
  | missingPath (idx : Nat)
  deriving DecidableEq, Repr

structure RouteSpec where
  method : Option String
  methods : List String
  path : String
  language : Option String
  source : Option String
  sourceFile : Option String
  deriving DecidableEq, Repr

structure GroupSpec where
  name : String
  ttl : Option String
  sliding : Option Bool
  callout : Option Bool
  routes : List RouteSpec
  deriving DecidableEq, Repr

structure NormalizedRoute where
  methods : List String
  path : String
  language : String
  source : String
  deriving DecidableEq, Repr

structure NormalizedSpec where
  name : String
  ttlSeconds : Option Nat
  sliding : Option Bool
  callout : Option Bool
  routes : List NormalizedRoute
  deriving DecidableEq, Repr

structure ImportSummary where
  group : String
  routesCreated : Nat
  deriving DecidableEq, Repr

def digitsValue (digits : List Char) : Nat :=
  digits.foldl (fun n c => n * 10 + (c.toNat - '0'.toNat)) 0

/-- Parsing at `u64`: digits with an optional plus sign, below the size of the type. -/
def parseU64 (s : List Char) : Option Nat :=
  let digits := match s with
    | '+' :: rest => rest
    | _ => s
  if digits ≠ [] ∧ digits.all Char.isDigit ∧ digitsValue digits < u64Size then
    some (digitsValue digits)
  else none

def unitSeconds : Char → Option Nat
  | 's' => some 1
  | 'm' => some 60
  | 'h' => some 3600
  | 'd' => some 86400
  | _ => none

/-- The loop over the characters: the total so far and the digits since the last unit. -/
def parseSegments (duration : String) : List Char → Nat → List Char → Except SpecError Nat
  | [], total, [] => .ok total
  | [], _, current => .error (.trailingNumber duration (String.ofList current))
  | ch :: rest, total, current =>
    if ch.isDigit then parseSegments duration rest total (current ++ [ch])
    else if current = [] then .error (.unitWithoutNumber duration ch)
    else match parseU64 current with
      | none => .error (.numberTooLarge duration (String.ofList current))
      | some n =>
        match unitSeconds ch with
        | none => .error (.unknownUnit duration ch)
        | some mult =>
          if n * mult ≥ u64Size then .error (.segmentOverflows duration n ch)
          else if total + n * mult ≥ u64Size then .error (.totalOverflows duration)
          else parseSegments duration rest (total + n * mult) []

def parseDuration (text : String) : Except SpecError Nat :=
  let duration := trim text
  if duration = "" then .error .emptyDuration
  else match parseU64 duration.toList with
    | some n => .ok n
    | none => parseSegments duration duration.toList 0 []

/-- The singular or the plural form of the methods, but not both. -/
def specMethods (idx : Nat) (r : RouteSpec) : Except SpecError (List String) :=
  match r.method, r.methods with
  | some _, _ :: _ => .error (.methodAndMethods idx r.path)
  | some m, [] => .ok [m]
  | none, m :: ms => .ok (m :: ms)
  | none, [] => .error (.missingMethod idx r.path)

/-- The inline source; a source file must have been resolved before. -/
def specSource (idx : Nat) (r : RouteSpec) : Except SpecError String :=
  match r.source, r.sourceFile with
  | some _, some _ => .error (.sourceAndSourceFile idx r.path)
  | some s, none => .ok s
  | none, some _ => .error (.sourceFileUnresolved idx r.path)
  | none, none => .error (.missingSource idx r.path)

def normalizeRoute (idx : Nat) (r : RouteSpec) : Except SpecError NormalizedRoute := do
  let methods ← specMethods idx r
  let source ← specSource idx r
  if isBlank r.path then .error (.missingPath idx)
  else .ok ⟨methods, r.path, r.language.getD "typescript", source⟩

def normalizeRoutes : Nat → List RouteSpec → Except SpecError (List NormalizedRoute)
  | _, [] => .ok []
  | idx, r :: rest => do
    let first ← normalizeRoute idx r
    let others ← normalizeRoutes (idx + 1) rest
    return first :: others

def specTtl : Option String → Except SpecError (Option Nat)
  | some s => (parseDuration s).map some
  | none => .ok none

def normalize (spec : GroupSpec) : Except SpecError NormalizedSpec :=
  if isBlank spec.name then .error .missingName
  else do
    let ttlSeconds ← specTtl spec.ttl
    let routes ← normalizeRoutes 0 spec.routes
    return ⟨spec.name, ttlSeconds, spec.sliding, spec.callout, routes⟩

/-! Routes through the API -/

inductive ApiError where
  | notFound
  | registry (e : RegistryError)
  | spec (e : SpecError)
  | wasmUnsupported
  | sourceRequired (language : String)
  | unsupportedLanguage (language : String)
  | compileFailed (msg : String)
  /-- A route of an import failed, and its group has been rolled back. -/
  | rolledBack (idx : Nat) (path : String) (cause : ApiError) (name : String)
  deriving DecidableEq, Repr

abbrev Api (A : Type) := Prog Store ApiError A

/-- An operation of the registry, called from the API. -/
def viaRegistry {A : Type} (p : Reg A) : Api A := Prog.mapError .registry p

structure CreateRouteBody where
  group : Option String
  methods : List String
  path : String
  language : String
  source : Option String
  deriving DecidableEq, Repr

def supportedBindingsVersion : String := "0.1.0"

/-- A route may only be added to an existing group of one's own, or as an admin; a group
    one does not own answers like a missing one. -/
def tenancyGate [UlidText] (auth : AuthContext) : Option String → Api Unit
  | none => return ()
  | some reference => do
    match ← Prog.attempt (viaRegistry (readGroupByRef reference)) with
    | .error _ => Prog.fail .notFound
    | .ok group =>
      if group.ownerId = auth.userId ∨ auth.isAdmin then return ()
      else Prog.fail .notFound

/-- The source a route is stored with, checked by the transpiler. -/
def checkedSource (transpile : String → Except String String) (body : CreateRouteBody) :
    Except ApiError String :=
  if body.language = "wasm" then .error .wasmUnsupported
  else if body.language = "javascript" ∨ body.language = "typescript" then
    match body.source with
    | none => .error (.sourceRequired body.language)
    | some source =>
      match transpile source with
      | .error msg => .error (.compileFailed msg)
      | .ok _ => .ok source
  else .error (.unsupportedLanguage body.language)

/-- What the route is registered with once its source has been checked. -/
def registered (auth : AuthContext) (body : CreateRouteBody) (source : String) : NewRoute where
  group := body.group
  methods := body.methods
  path := body.path
  language := body.language
  bindingsVersion := supportedBindingsVersion
  compiledWasm := []
  source := some source
  ownerId := auth.userId

/-- What the creation of a route draws by chance or reads off the clock. -/
structure RouteDraws where
  ids : NewIds
  now : Time
  draw : Nat → Draw

def createRouteCore [UlidText] (transpile : String → Except String String) (auth : AuthContext)
    (body : CreateRouteBody) (drawn : RouteDraws) : Api Route := do
  tenancyGate auth body.group
  viaRegistry (precheckCreateConflict body.group body.methods body.path)
  let source ← Prog.ofExcept (checkedSource transpile body)
  viaRegistry (createRoute (registered auth body source) drawn.ids drawn.now drawn.draw)

/-! Imports -/

structure ImportDraws where
  groupId : String
  now : Time
  draw : Nat → Draw
  routes : Nat → RouteDraws

def importBody (group : Group) (r : NormalizedRoute) : CreateRouteBody :=
  ⟨some group.name, r.methods, r.path, r.language, some r.source⟩

/-- Create the routes in turn; the first that fails rolls the whole group back. -/
def importRoutes [UlidText] (transpile : String → Except String String) (auth : AuthContext)
    (group : Group) (draws : Nat → RouteDraws) : Nat → List NormalizedRoute → Api Unit
  | _, [] => return ()
  | idx, r :: rest => do
    match ← Prog.attempt (createRouteCore transpile auth (importBody group r) (draws idx)) with
    | .ok _ => importRoutes transpile auth group draws (idx + 1) rest
    | .error e => do
      let _ ← Prog.attempt (viaRegistry (cascadeDeleteGroup group.id))
      Prog.fail (.rolledBack idx r.path e group.name)

def patchImported (group : Group) : Option Bool → Api Unit
  | none => return ()
  | some flag => do
    let _ ← viaRegistry (patchGroup group.id none none (some flag))
    return ()

def importGroupCore [UlidText] (transpile : String → Except String String) (auth : AuthContext)
    (spec : GroupSpec) (drawn : ImportDraws) : Api ImportSummary := do
  let normalized ← Prog.ofExcept ((normalize spec).mapError .spec)
  let group ← viaRegistry (createGroup
    ⟨normalized.name, auth.userId, normalized.ttlSeconds, normalized.sliding⟩
    drawn.groupId drawn.now drawn.draw)
  patchImported group normalized.callout
  importRoutes transpile auth group drawn.routes 0 normalized.routes
  return ⟨group.name, normalized.routes.length⟩

end WireMirage
