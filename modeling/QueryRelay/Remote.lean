import QueryRelay.Result.Raw
import QueryRelay.Failure
import QueryRelay.Statement

/-!
# The remote engine

What the library asks of the remote engine, and what it gets back.  Clients and remote sessions are known by the
numbers under which they were handed out; what an answer to a request can be is `Request.Reply`.
-/

namespace QueryRelay

/-- The member of a cluster that a statement goes to. -/
inductive RoutingMode where
  | read
  | write
deriving Repr, DecidableEq, Inhabited

namespace RoutingMode

def all : List RoutingMode := [read, write]

def name : RoutingMode → String
  | read => "read"
  | write => "write"

def codec : Codec RoutingMode := .choice all name

end RoutingMode

/-- What a session may do to the data. -/
inductive AccessMode where
  | read
  | write
deriving Repr, DecidableEq, Inhabited

namespace AccessMode

def all : List AccessMode := [read, write]

def name : AccessMode → String
  | read => "read"
  | write => "write"

def codec : Codec AccessMode := .choice all name

end AccessMode

/-- The options of a remote session. -/
structure SessionOptions where
  fetchSize : Option Nat := none
  accessMode : AccessMode := .write
  bookmarks : List String := []
  impersonatedUser : Option String := none
deriving Repr, DecidableEq, Inhabited

def SessionOptions.codec : Codec SessionOptions :=
  RecordReader.codec
    (SessionOptions.mk <$> .field "fetch_size" (.option .size) (.default none)
      <*> .field "access_mode" AccessMode.codec (.default .write)
      <*> .field "bookmarks" (.list .string) (.default [])
      <*> .field "impersonated_user" (.option .string) (.default none))
    "SessionConfig"
    fun o =>
      .object
        [("fetch_size", (Codec.option .size).encode o.fetchSize), ("access_mode", AccessMode.codec.encode o.accessMode),
          ("bookmarks", .ofTexts o.bookmarks), ("impersonated_user", .ofText? o.impersonatedUser)]

/-- A client of the engine. -/
structure ClientId where
  number : Nat
deriving Repr, DecidableEq, Inhabited

/-- A session as the engine knows it. -/
structure RemoteSession where
  number : Nat
deriving Repr, DecidableEq, Inhabited

/-- A request to the engine. -/
inductive Request where
  | openSession (client : ClientId) (database : Option String) (options : SessionOptions)
  | beginTransaction (session : RemoteSession)
  | run (session : RemoteSession) (statement : Statement)
  | commit (session : RemoteSession)
  | rollback (session : RemoteSession)
  | closeSession (session : RemoteSession)
  | execute (client : ClientId) (database : Option String) (routing : RoutingMode) (statement : Statement)
  | closeClient (client : ClientId)
deriving Repr, Inhabited

/-- What the engine answers to a request. -/
abbrev Request.Reply : Request → Type
  | .openSession _ _ _ => Except Failure RemoteSession
  | .run _ _ => Except Failure RawResult
  | .execute _ _ _ _ => Except Failure RawResult
  | _ => Except Failure Unit

end QueryRelay
