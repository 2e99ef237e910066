import RespLoad.Connection.Dial

/-!
# Connection objects

A fixed number of connection objects, each holding an open socket or none. A socket is owned by one
object: it moves between objects, and an object that is opened again, given another socket or destroyed
closes the one it held. Every system call is recorded with the descriptor it is made on. Which
descriptor a new socket gets is the system's choice; all that is assumed is that it is not in use.
-/
namespace RespLoad

/-- How the system chooses the descriptor of a new socket. -/
structure Allocator where
  pick : List Nat → Nat
  pick_not_mem : ∀ used, pick used ∉ used

/-- Chooses the number above all that are in use. -/
def Allocator.above : Allocator where
  pick := fun used => used.foldr max 0 + 1
  pick_not_mem := by
    have bound : ∀ (used : List Nat) (d : Nat), d ∈ used → d ≤ used.foldr max 0 := by
      intro used
      induction used with
      | nil => simp
      | cons first rest ih =>
        intro d hd
        rcases List.mem_cons.mp hd with rfl | hrest
        · exact Nat.le_max_left _ _
        · exact Nat.le_trans (ih d hrest) (Nat.le_max_right _ _)
    intro used hmem
    exact absurd (bound used _ hmem) (by omega)

/-- An open socket as a connection object holds it. -/
structure Held where
  descriptor : Nat
  /-- The number of the connection, counted from zero in the order of opening. -/
  connection : Nat
  peer : Peer

/-- A system call on a socket of the pool. -/
structure SocketCall where
  connection : Nat
  descriptor : Nat
  event : Event

/-- The connection objects, the descriptors in use, and all that happened so far. -/
structure Pool (size : Nat) where
  objects : Vector (Option Held) size
  scripts : List Script
  inUse : List Nat := []
  /-- How many connections have been tried. -/
  tried : Nat := 0
  calls : List SocketCall := []
  log : List LogEntry := []

/-- What is done with the connection objects. -/
inductive PoolAction (size : Nat) where
  | openTo (object : Fin size) (target : Target)
  | send (object : Fin size) (payload : Bytes)
  | read (object : Fin size)
  | roundTrip (object : Fin size) (command : Command)
  | close (object : Fin size)
  | moveAssign (source destination : Fin size)
  | moveConstruct (source destination : Fin size)

/-- The answer to an action. -/
inductive PoolAnswer where
  | silent
  | done
  | reply (reply : Reply)
  | refused (cause : OpenError)
  | failed (cause : IoError)

namespace Pool

variable {size : Nat}

/-- Objects that are all closed. -/
def closed (scripts : List Script) : Pool size where
  objects := Vector.replicate size none
  scripts := scripts

/-- The pool after calls on one socket. -/
def record (pool : Pool size) (connection descriptor : Nat) (events : List Event) : Pool size :=
  { pool with calls := pool.calls ++ events.map (⟨connection, descriptor, ·⟩) }

/-- The pool with another socket, or none, in an object. Nothing is closed. -/
def put (pool : Pool size) (object : Fin size) (held : Option Held) : Pool size :=
  { pool with objects := pool.objects.set object held }

/-- Closes the socket of an object, if it holds one. -/
def closeObject (pool : Pool size) (object : Fin size) : Pool size :=
  match pool.objects[object] with
  | none => pool
  | some held =>
    let released := { pool with inUse := pool.inUse.erase held.descriptor }
    (released.record held.connection held.descriptor [.close]).put object none

/-- Opens a connection in an object, which first closes what it holds. -/
def openObject (allocator : Allocator) (pool : Pool size) (object : Fin size) (target : Target) :
    PoolAnswer × Pool size :=
  let pool := pool.closeObject object
  let descriptor := allocator.pick pool.inUse
  let dialled := target.dial (pool.scripts.headD Script.refused)
  let dialledPool :=
    { pool.record pool.tried descriptor dialled.events with
      scripts := pool.scripts.drop 1
      tried := pool.tried + 1
      log := pool.log ++ dialled.log }
  match dialled.result with
  | .error cause => (.refused cause, dialledPool)
  | .ok peer =>
    let held := { dialledPool with inUse := descriptor :: dialledPool.inUse }
    (.done, held.put object (some ⟨descriptor, pool.tried, peer⟩))

/-- Talks over the socket of an object. -/
def talk {α : Type} (pool : Pool size) (object : Fin size) (onClosed : IoError)
    (calls : Peer → Stretch α) (answer : α → PoolAnswer) : PoolAnswer × Pool size :=
  match pool.objects[object] with
  | none => (.failed onClosed, pool)
  | some held =>
    let stretch := calls held.peer
    let after := (pool.record held.connection held.descriptor stretch.events).put object
      (some { held with peer := stretch.peer })
    match stretch.result with
    | .error cause => (.failed cause, after)
    | .ok value => (answer value, after)

/-- Takes the socket out of one object and puts it into another, which closes its own. -/
def moveSocket (pool : Pool size) (source destination : Fin size) : Pool size :=
  let moved := pool.objects[source]
  ((pool.put source none).closeObject destination).put destination moved

/-- One action. Assigning an object to itself does nothing. -/
def act (allocator : Allocator) (pool : Pool size) :
    PoolAction size → PoolAnswer × Pool size
  | .openTo object target => pool.openObject allocator object target
  | .send object payload => pool.talk object .sendOnClosed (·.send payload) fun () => .done
  | .read object => pool.talk object .readOnClosed Peer.read fun b => .reply (Reply.decode b)
  | .roundTrip object command =>
    pool.talk object .sendOnClosed (·.roundTrip command) fun b => .reply (Reply.decode b)
  | .close object => (.silent, pool.closeObject object)
  | .moveAssign source destination =>
    (.silent, if source = destination then pool else pool.moveSocket source destination)
  | .moveConstruct source destination => (.silent, pool.moveSocket source destination)

/-- Which objects hold a socket. -/
def isOpen (pool : Pool size) : List Bool := pool.objects.toList.map Option.isSome

/-- The actions in order, each answer with the pool after it. -/
def actEach (allocator : Allocator) (pool : Pool size) :
    List (PoolAction size) → List (PoolAnswer × Pool size)
  | [] => []
  | action :: more =>
    let step := pool.act allocator action
    step :: step.2.actEach allocator more

/-- Destroys all objects, in order. -/
def destroy (pool : Pool size) : Pool size := (List.finRange size).foldl closeObject pool

/-- The calls of one connection. -/
def eventsOf (pool : Pool size) (connection : Nat) : List Event :=
  (pool.calls.filter (·.connection == connection)).map SocketCall.event

/-- The calls of each connection, in the order of opening. -/
def connections (pool : Pool size) : List (List Event) :=
  (List.range pool.tried).map pool.eventsOf

end Pool

end RespLoad
