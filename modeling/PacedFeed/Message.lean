import PacedFeed.Time
import PacedFeed.Text.Blank

namespace PacedFeed

-- Which side of a session a message comes from.
inductive Origin where
  | user
  | assistant
  | system
  | tool
  deriving DecidableEq, Inhabited

namespace Origin

def name : Origin → String
  | .user => "User"
  | .assistant => "Assistant"
  | .system => "System"
  | .tool => "Tool"

def all : List Origin := [.user, .assistant, .system, .tool]

end Origin

-- A chunk is a fragment of something longer and may be joined with its neighbours. A control
-- message stands on its own.
inductive MessageKind where
  | chunk
  | control
  deriving DecidableEq, Inhabited

namespace MessageKind

def name : MessageKind → String
  | .chunk => "Chunk"
  | .control => "Control"

def all : List MessageKind := [.chunk, .control]

end MessageKind

-- The metadata is kept in increasing order of its keys, each key once.
structure Message where
  id : String
  origin : Origin
  kind : MessageKind
  content : String
  timestamp : Instant
  metadata : List (String × String)
  deriving DecidableEq, Inhabited

-- Why a message is turned away before it reaches the buffer.
inductive IngestError where
  | emptyId
  | contentTooLarge (id : String) (size limit : Nat)
  deriving DecidableEq

namespace IngestError

def message : IngestError → String
  | .emptyId => "message id is empty"
  | .contentTooLarge id size limit => s!"message {id} content is {size} bytes, limit is {limit}"

end IngestError

namespace Message

-- Puts an entry in its place, over an older one with the same key.
def insertEntry (key value : String) : List (String × String) → List (String × String)
  | [] => [(key, value)]
  | entry :: rest =>
    if key < entry.1 then (key, value) :: entry :: rest
    else if key = entry.1 then (key, value) :: rest
    else entry :: insertEntry key value rest

def withMetadata (message : Message) (key value : String) : Message :=
  { message with metadata := insertEntry key value message.metadata }

-- What is wrong with a message at the boundary, if anything. The size of the content is counted
-- in bytes of UTF-8.
def fault? (message : Message) (limit : Nat) : Option IngestError :=
  if isBlankText message.id then some .emptyId
  else if limit < message.content.utf8ByteSize then
    some (.contentTooLarge message.id message.content.utf8ByteSize limit)
  else none

def isMergeable (message : Message) : Bool :=
  message.kind = .chunk

-- Whether a message continues the run that an earlier one began.
def continues (message earlier : Message) : Bool :=
  earlier.isMergeable && message.isMergeable && earlier.origin = message.origin

-- Joins runs of chunks from one origin. The first message of a run keeps its id, timestamp and
-- metadata and takes the content of the rest.
def mergeFrom (run : Message) : List Message → List Message
  | [] => [run]
  | message :: rest =>
    if message.continues run then
      mergeFrom { run with content := run.content ++ message.content } rest
    else run :: mergeFrom message rest

def mergeRuns : List Message → List Message
  | [] => []
  | message :: rest => mergeFrom message rest

end Message

end PacedFeed
