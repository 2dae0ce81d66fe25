import Gatehouse.Files
import Gatehouse.Snapshot

/-! Snapshot files. Saving makes no directories; what was saved is read like any other snapshot.
-/

namespace Gatehouse.Snapshot

/-- Why a snapshot file cannot be used. -/
inductive FileFault
  | read
  | content (fault : SnapshotFault)
  | write
deriving DecidableEq

def load (files : Files) (path : FilePath) : Except FileFault (List Member) :=
  match files.readText? path with
  | none => .error .read
  | some text => (read text).mapError .content

def save (members : List Member) (files : Files) (path : FilePath)
    : Except FileFault Unit × Files :=
  match files.write? path (text members) with
  | none => (.error .write, files)
  | some files => (.ok (), files)

end Gatehouse.Snapshot
