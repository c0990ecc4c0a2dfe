import ScopedSignatures.Environment.Declare
import ScopedSignatures.Environment.Resolve
import ScopedSignatures.NameError

/-!
# Sessions

A session works on an environment and keeps another one aside. Each request gets
one reply. A request with a malformed name changes nothing.

## Main definitions

* `Session` — the current and the saved environment
* `Session.Request`, `Session.Reply` — what is asked and what is answered
* `Session.step` — one request
* `Session.replies` — the replies to a row of requests
-/

namespace ScopedSignatures

/-- The environment in use and the one kept aside. -/
structure Session where
  current : Environment
  saved : Environment

namespace Session

/-- A session begins without declarations. -/
def start : Session := ⟨.empty, .empty⟩

/-- What a session can be asked. -/
inductive Request where
  | declare (declaration : Declaration)
  | declareAll (declarations : List Declaration)
  /-- Puts the environment made of a batch in the place of the current one. -/
  | rebuild (declarations : List Declaration)
  /-- Puts an empty environment in the place of the current one. -/
  | clear
  /-- Puts the current environment in the place of the saved one. -/
  | save
  /-- Exchanges the current environment and the saved one. -/
  | swap
  | measure
  | resolveClass (name : ModuleName) (scope : Namespace)
  | resolveModule (name : ModuleName) (scope : Namespace)
  | resolveClassOrModule (name : ModuleName) (scope : Namespace)
  | resolveConstant (name : ModuleName) (scope : Namespace)
  | lookUpInterface (name : InterfaceName) (scope : Namespace)
  | lookUpAlias (name : AliasName) (scope : Namespace)
  | findGlobal (name : Symbol)
  | findExtensions (name : ModuleName)
  | isClass (name : ModuleName)
  | isModule (name : ModuleName)
  | isConstant (name : ModuleName)
  | list

/-- What a session answers. -/
inductive Reply where
  /-- Done; this is the current environment now. -/
  | done (env : Environment)
  /-- Refused for a conflict; this is the current environment now. -/
  | refused (conflict : Conflict) (env : Environment)
  | declaration (found : Option Declaration)
  | classOrModule (found : Option ClassOrModule)
  | extensions (found : List Extension)
  | unknownAlias (miss : UnknownAlias)
  | truth (holds : Bool)
  /-- All that the environment holds. -/
  | contents (env : Environment)
  | malformed (error : NameError)

/-- The reply to an attempt at a declaration or a batch. -/
def outcome : Attempt Environment → Reply
  | ⟨env, none⟩ => .done env
  | ⟨env, some conflict⟩ => .refused conflict env

/-- One request: the session after it, and the reply with what was noted. -/
def step (session : Session) : Request → Session × Journaled Reply
  | .declare declaration =>
    let result := session.current.declare declaration
    ({ session with current := result.value.state }, result.map outcome)
  | .declareAll declarations =>
    let result := session.current.declareAll declarations
    ({ session with current := result.value.state }, result.map outcome)
  | .rebuild declarations =>
    let result := Environment.ofDeclarations declarations
    match result.value with
    | .ok env => ({ session with current := env }, result.map fun _ => .done env)
    | .error conflict => (session, result.map fun _ => .refused conflict session.current)
  | .clear => ({ session with current := .empty }, .silent (.done .empty))
  | .save => ({ session with saved := session.current }, .silent (.done session.current))
  | .swap => (⟨session.saved, session.current⟩, .silent (.done session.saved))
  | .measure => (session, .silent (.done session.current))
  | .resolveClass name scope =>
    (session, (session.current.resolveClass name scope).map fun found =>
      .declaration (found.map .ofClass))
  | .resolveModule name scope =>
    (session, (session.current.resolveModule name scope).map fun found =>
      .declaration (found.map .ofModule))
  | .resolveClassOrModule name scope =>
    (session, (session.current.resolveClassOrModule name scope).map .classOrModule)
  | .resolveConstant name scope =>
    (session, (session.current.resolveConstant name scope).map fun found =>
      .declaration (found.map .ofConstant))
  | .lookUpInterface name scope =>
    (session, (session.current.lookUpInterface name scope).map fun found =>
      .declaration (found.map .ofInterface))
  | .lookUpAlias name scope =>
    (session, (session.current.lookUpAlias name scope).map fun
      | .ok definition => .declaration (some (.ofTypeAlias definition))
      | .error miss => .unknownAlias miss)
  | .findGlobal name =>
    (session, .silent (.declaration ((session.current.global? name).map .ofGlobal)))
  | .findExtensions name => (session, .silent (.extensions (session.current.extensionsOf name)))
  | .isClass name => (session, .silent (.truth (session.current.isClass name)))
  | .isModule name => (session, .silent (.truth (session.current.isModule name)))
  | .isConstant name => (session, .silent (.truth (session.current.isConstant name)))
  | .list => (session, .silent (.contents session.current))

/-- The replies to a row of requests, each put to the session that the ones before it left. -/
def replies (session : Session) : List (Except NameError Request) → List (Journaled Reply)
  | [] => []
  | .error error :: later => .silent (.malformed error) :: replies session later
  | .ok request :: later => (session.step request).2 :: replies (session.step request).1 later

end Session

end ScopedSignatures
