import PacedFeed.Config.Format
import PacedFeed.Config.Validation

namespace PacedFeed

-- A folder whose only file, if it has one, stands at the path that is asked for.
structure Folder where
  file : Option ByteArray

namespace Folder

-- Whether a path leads nowhere but to the folder itself or above it.
def staysPut (path : String) : Bool :=
  path ≠ "" ∧ (path.splitOn "/").all fun part => part ∈ ["", ".", ".."]

-- The text at a path. A path that cannot name a file fails before the file is looked at.
def read (folder : Folder) (path : String) : Except ReadFailure String :=
  if path.toList.contains '\x00' then .error .nulInPath
  else if path = "" then .error .missing
  else if staysPut path then .error .directory
  else
    match folder.file with
    | none => .error .missing
    | some bytes =>
      match String.fromUTF8? bytes with
      | none => .error .notUtf8
      | some text => .ok text

end Folder

namespace PipelineConfig

-- Reads and validates settings. Malformed text comes before any fault in its values.
def ofText (text : String) : Except ConfigError PipelineConfig :=
  match (Json.parse? text).bind ofJson? with
  | none => .error .malformed
  | some config =>
    match config.fault? with
    | some fault => .error fault
    | none => .ok config

def ofFile (folder : Folder) (path : String) : Except ConfigError PipelineConfig :=
  match folder.read path with
  | .error failure => .error (.unreadable path failure)
  | .ok text => ofText text

end PipelineConfig

end PacedFeed
