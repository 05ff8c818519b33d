import LayeredConfig.Settings
import LayeredConfig.Text.Lowercase
import LayeredConfig.World

/-!
# Logging

What has to be right before a log is written: the level, and for a log in files the rotation and the
directory, which is made if it is missing.
-/

namespace LayeredConfig.Logging

/-- The names of levels. -/
def levels : List String := ["trace", "debug", "info", "warn", "error"]

/-- Prepare for logging at a level, with letters of either case. See `SPEC_FULL.md:244–247`,
`init_logging`. -/
def start (w : World) (level : String) (s : LogSettings) : Except Fault World :=
  if !levels.contains (Text.lower level) then .error (.logLevel level)
  else if !s.enabled then .ok w
  else if !rotations.contains s.rotation then .error (.logRotation s.rotation)
  else
    match w.files.makeDirectories s.path with
    | .ok files => .ok { w with files }
    | .error cause => .error (.logDirectory s.path cause)

end LayeredConfig.Logging
