import PacedFeed.Fifo

namespace PacedFeed

-- A stream that any number of readers follow, each at its own pace. Only the newest values stay
-- readable.
structure Broadcast (α : Type) where
  sent : Nat
  kept : Fifo α

-- How many values of the stream lie behind a reader.
structure Cursor where
  position : Nat
  deriving DecidableEq

inductive Reading (α : Type) where
  | value (item : α)
  | lagged (missed : Nat)
  | caughtUp

namespace Broadcast

variable {α : Type}

def depth : Nat := 1024

def empty : Broadcast α :=
  ⟨0, .empty⟩

def send (stream : Broadcast α) (item : α) : Broadcast α :=
  ⟨stream.sent + 1, (stream.kept.push item).keepNewest depth⟩

-- A new reader sees what is sent from now on.
def subscribe (stream : Broadcast α) : Cursor :=
  ⟨stream.sent⟩

-- The position of the oldest value that is still readable.
def oldest (stream : Broadcast α) : Nat :=
  stream.sent - stream.kept.size

-- The next value for a reader. One that fell behind is told how many values it missed and goes
-- on with the oldest readable one.
def read (stream : Broadcast α) (cursor : Cursor) : Reading α × Cursor :=
  if cursor.position < stream.oldest then
    (.lagged (stream.oldest - cursor.position), ⟨stream.oldest⟩)
  else
    match stream.kept.toList[cursor.position - stream.oldest]? with
    | some item => (.value item, ⟨cursor.position + 1⟩)
    | none => (.caughtUp, cursor)

def drainFrom (stream : Broadcast α) : Nat → Cursor → List (Reading α) × Cursor
  | 0, cursor => ([], cursor)
  | fuel + 1, cursor =>
    match stream.read cursor with
    | (.caughtUp, cursor) => ([], cursor)
    | (reading, cursor) =>
      let (rest, cursor) := stream.drainFrom fuel cursor
      (reading :: rest, cursor)

-- Reads until the reader has caught up. Each read but at most one passes a kept value.
def drain (stream : Broadcast α) (cursor : Cursor) : List (Reading α) × Cursor :=
  stream.drainFrom (stream.kept.size + 1) cursor

end Broadcast

end PacedFeed
