/-
Rendezvous/Peer/Directory.lean

Directories of peer files.

Every file with the extension `peer` is named by the identifier of a member
and holds its definition.  The whole directory is read or none of it, and the
peers come in ascending order of their identifiers, in whatever order the
directory is listed.

The names in a directory are texts.  One that is not, because its octets are no
UTF-8, cannot stand in a `Directory`; reading such a file fails with "Unreadable
peer file name", and that fault does not arise here.
-/
import Rendezvous.Peer.Lines
import Rendezvous.Volume

namespace Rendezvous.Peer

/-- Extension of the file of a member. -/
def extension : String := "peer"

/-- Read the file of a member; `path` is that of the directory.  The stem is text
already, as the name is, so all that can be wrong with it is its spelling. -/
def readFile (path : String) (d : Directory) (name stem : String) : Except Error Peer :=
  match Uuid.parse stem with
  | .error f =>
    .error (.configuration ("Peer file " ++ joinPath path name ++ " is not named by uuid: "
      ++ f.message))
  | .ok id =>
    match d.readText name with
    | .error f => .error f.error
    | .ok contents => ofLines id contents

/-- Read the files of members among the listed names. -/
def readListed (path : String) (d : Directory) : List String → Except Error (List Peer)
  | [] => .ok []
  | name :: rest =>
    match splitName name with
    | (stem, some ext) =>
      if ext = extension then do
        let p ← readFile path d name stem
        let ps ← readListed path d rest
        .ok (p :: ps)
      else readListed path d rest
    | _ => readListed path d rest

/-- Read a directory of peer files. -/
def readDirectory (path : String) (d : Directory) : Except Error (List Peer) :=
  (readListed path d d.keys).map sort

/-- Read the directory of peer files at a path of a volume. -/
def readVolume (v : Volume) (path : String) : Except Error (List Peer) :=
  match v.directory path with
  | .error f => .error f.error
  | .ok d => readDirectory path d

end Rendezvous.Peer
