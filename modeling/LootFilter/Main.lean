import LootFilter.CommandLine.Run

/-! The command line tool. -/

set_option autoImplicit false

namespace LootFilter

def lookAtDisk (path : Path) : IO Entry := do
  if path.hasNul then return .unnameable
  try
    let bytes ← IO.FS.readBinFile path.toString
    return .file bytes.toList
  catch failure =>
    match failure with
    | .noFileOrDirectory _ _ _ => return .missing
    | .inappropriateType _ _ _ => return .belowFile
    | _ => return if path.isTooLong || path.names.any Path.isLongName then .tooLong else .directory

end LootFilter

open LootFilter in
def main (arguments : List String) : IO UInt32 := do
  match ← CommandLine.run lookAtDisk arguments with
  | .error crash =>
    IO.eprintln crash.message
    return 1
  | .ok response =>
    IO.print response.output
    IO.eprint response.errors
    return response.exit.toUInt32
