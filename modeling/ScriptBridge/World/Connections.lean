import ScriptBridge.World.Basic

/-!
The connections of an object: they stand in the order in which they were made, and numbers are given
once.
-/

namespace ScriptBridge

/-- What identifies a receiver when a connection is to be removed. -/
inductive ReceiverKey where
  | script (callable : Value)
  | slot (target : ObjectId) (signature : String)

def Receiver.isFor (r : Receiver) : ReceiverKey → Bool
  | .script callable => match r with
    | .script _ own => own.eq callable
    | .slot .. => false
  | .slot target signature => match r with
    | .script .. => false
    | .slot ownTarget ownSignature _ _ => ownTarget == target && ownSignature == signature

namespace HostObject

/-- The connections of a signal. -/
def connectionsOf (o : HostObject) (signal : String) : List Connection :=
  o.connections.filter (·.signal == signal)

def connect (o : HostObject) (signal : String) (receiver : Receiver) : HostObject :=
  { o with
    connections := o.connections ++ [⟨o.nextConnection, signal, receiver⟩]
    nextConnection := o.nextConnection + 1 }

/-- Removes the connections of a signal with one receiver, or all of the signal. -/
def disconnect (o : HostObject) (signal : String) (key : Option ReceiverKey) : HostObject :=
  { o with
    connections := o.connections.filter fun c => !(c.signal == signal && key.all c.receiver.isFor) }

def disconnectId (o : HostObject) (id : Nat) : HostObject :=
  { o with connections := o.connections.filter (·.id != id) }

end HostObject

namespace World

def connectionsOf (w : World) (o : ObjectId) (signal : String) : List Connection :=
  ((w.object? o).map (·.connectionsOf signal)).getD []

/-- Adds a connection; its number is the result. -/
def connect (w : World) (o : ObjectId) (signal : String) (receiver : Receiver) : Nat × World :=
  (((w.object? o).map (·.nextConnection)).getD 0, w.modifyObject o (·.connect signal receiver))

def connectionCount (w : World) (o : ObjectId) : Nat :=
  ((w.object? o).map (·.connections.length)).getD 0

/-- Removes connections; the result says whether there were any. -/
def disconnect (w : World) (o : ObjectId) (signal : String) (key : Option ReceiverKey) :
    Bool × World :=
  let w' := w.modifyObject o (·.disconnect signal key)
  (w'.connectionCount o != w.connectionCount o, w')

def disconnectId (w : World) (o : ObjectId) (id : Nat) : Bool × World :=
  let w' := w.modifyObject o (·.disconnectId id)
  (w'.connectionCount o != w.connectionCount o, w')

end World

end ScriptBridge
