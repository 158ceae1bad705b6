import ScriptBridge.Value.Conversion

/-!
Tables from the host's side: reading and writing through metamethods, and what goes past them:
length, entries, shifting a sequence.
-/

namespace ScriptBridge

open Script (Datum Table)

namespace TableOps

/-- Replaces the content of a table, past metamethods. -/
def setContent (r : Ref) (content : Table) : Action Unit := do
  .perform (.write r (.table content (← .view (·.metatableAt r))))

def newTable (s : StateId) : Action Value :=
  .operation s do
    let r ← .perform (.allocate s (.table {} none))
    Value.anchored .table r

/-- Reads a member through metamethods. -/
def get (r : Ref) (key : Value) : Action Value :=
  .operation r.owner do
    let key ← key.toDatum r.owner
    let data ← runTask r.owner (.index (.table r) key)
    Value.ofDatum (data.headD .nil)

/-- Writes a member through metamethods. -/
def set (r : Ref) (key value : Value) : Action Unit :=
  .operation r.owner do
    let key ← key.toDatum r.owner
    let value ← value.toDatum r.owner
    discard <| runTask r.owner (.assign (.table r) key value)

/-- All entries as they are now. -/
def entries (table : Value) (r : Ref) : Action (List Entry) :=
  .operation r.owner do
    let content ← .view (·.tableAt r)
    content.live.mapM fun (k, v) => do
      let key ← Value.ofDatum k
      pure ⟨table, key, ← Value.ofDatum v⟩

/-- The key of a position. -/
def at_ (i : Int) : Datum := .int (Int64.ofInt i)

/-- Moves the items from `start` on down by `n`; what is at the end goes. -/
def shiftDown (content : Table) (start length n : Int) : Table :=
  (List.range (length - start + 1).toNat).foldl (fun (content : Table) (k : Nat) =>
    let i := start + k
    content.set (at_ i) (if i + n ≤ length then content.get (at_ (i + n)) else .nil)) content

/-- Moves the items from `start` on up by `n`. -/
def shiftUp (content : Table) (start length n : Int) : Table :=
  (List.range (length - start + 1).toNat).foldl (fun (content : Table) (k : Nat) =>
    let i := length - k
    content.set (at_ (i + n)) (content.get (at_ i))) content

/-- Puts copies of a datum at `n` positions from `start` on. -/
def fillFrom (content : Table) (start n : Int) (fill : Datum) : Table :=
  (List.range n.toNat).foldl (fun (content : Table) (k : Nat) =>
    content.set (at_ (start + k)) fill) content

def maxInteger : Int := Int64.maxValue.toInt

/-- Removes items of a sequence from `start` on, or makes room for copies of `fill` there. -/
def shift (r : Ref) (start count : Int64) (fill : Value) : Action Unit :=
  .operation r.owner do
    let content ← .view (·.tableAt r)
    let length : Int := content.length
    let start := start.toInt
    let count := count.toInt
    if start < 1 ∨ length + 1 < start then
      .throw ⟨.typeMismatch, s!"shift start {start} out of range 1..={length + 1}",
        some "value.shift"⟩
    else if count < 0 then
      setContent r (shiftDown content start length (min (-count) (length - start + 1)))
    else if 0 < count then
      if maxInteger < length + count ∨ maxInteger < start + count then
        .throw ⟨.typeMismatch, s!"shift count {count} overflows the sequence of length {length}",
          some "value.shift"⟩
      else
        let moved := shiftUp content start length count
        setContent r moved
        let fill ← fill.toDatum r.owner
        setContent r (fillFrom moved start count fill)

end TableOps

end ScriptBridge
