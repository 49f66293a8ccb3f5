import QueryRelay.Config
import QueryRelay.Remote
import QueryRelay.Session.State
import QueryRelay.Table

/-!
# The session registry

The registry tracks every session between its opening and the end of its closing, and counts the openings that are
under way.  Both count against the limit: `Registry.reserve?` takes a place before the engine is asked, and the place
either goes over to the session in `Registry.track` or is given back by `Registry.release`.
-/

namespace QueryRelay

/-- A session with its remote side. -/
structure TrackedSession where
  state : SessionState
  remote : RemoteSession
deriving Repr, Inhabited

/-- What a caller holds of a session. -/
structure SessionHandle where
  id : SessionId
  database : Option String
  remote : RemoteSession
deriving Repr, DecidableEq, Inhabited

/-- The value of the session's `database` label. -/
def SessionHandle.label (h : SessionHandle) : String := databaseLabel h.database

/-- The tracked sessions, and the openings under way. -/
structure Registry where
  sessions : Table SessionId TrackedSession := Table.empty
  /-- Openings that have a place but no session yet. -/
  pending : Nat := 0
  /-- The serial number of the next session. -/
  nextSerial : Nat := 1
deriving Inhabited

namespace Registry

/-- How many places are taken. -/
def occupied (g : Registry) : Nat := g.sessions.size + g.pending

/-- Takes a place, if there is one. -/
def reserve? (g : Registry) (limits : SessionLimits) : Option Registry :=
  if limits.maxSessions ≤ g.occupied then none else some { g with pending := g.pending + 1 }

/-- Gives a place back. -/
def release (g : Registry) : Registry := { g with pending := g.pending - 1 }

/-- Turns a place into a session. -/
def track (g : Registry) (database : Option String) (remote : RemoteSession) (now : Instant) :
    Registry × SessionHandle :=
  let id : SessionId := ⟨g.nextSerial⟩
  ({ sessions := g.sessions.insert id ⟨.new database now, remote⟩
     pending := g.pending - 1
     nextSerial := g.nextSerial + 1 },
    ⟨id, database, remote⟩)

/-- The state of a tracked session. -/
def state? (g : Registry) (id : SessionId) : Option SessionState := (g.sessions.get? id).map TrackedSession.state

def isTracked (g : Registry) (id : SessionId) : Bool := g.sessions.contains id

/-- Changes the state of a tracked session. -/
def update (g : Registry) (id : SessionId) (change : SessionState → SessionState) : Registry :=
  { g with sessions := g.sessions.modify id fun t => { t with state := change t.state } }

/-- Drops a session. -/
def remove (g : Registry) (id : SessionId) : Registry := { g with sessions := g.sessions.erase id }

/-- The sessions that an idle sweep closes. -/
def reapable (g : Registry) (limits : SessionLimits) (now : Instant) : List SessionId :=
  (g.sessions.entries.filter fun e => e.2.state.isReapable limits.sessionTimeout now).map Prod.fst

/-- How many sessions have each status, in the order of the life cycle; a status without sessions is left out. -/
def statusCounts (g : Registry) : List (SessionStatus × Nat) :=
  (SessionStatus.all.map fun status => (status, g.sessions.values.countP fun t => t.state.status = status)).filter
    fun c => c.2 ≠ 0

end Registry

end QueryRelay
