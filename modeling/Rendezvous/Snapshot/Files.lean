/-
Rendezvous/Snapshot/Files.lean

Putting a snapshot on disk.

Every file is written under a temporary name and then moved to its own, the
files of the peers first and the descriptor that lists them last.  The whole is
a list of single operations; a run stops at the first that fails and leaves the
directory as it is then.
-/
import Rendezvous.Snapshot
import Rendezvous.Volume

namespace Rendezvous

/-! ### Single operations -/

/-- One operation in a directory. -/
inductive FileStep where
  | create (name : String)
  | append (name : String) (octets : List UInt8)
  | move (source target : String)
  | sync
  deriving DecidableEq, Repr

/-- What an operation makes of a directory; `sync` only makes it last. -/
def FileStep.apply (d : Directory) : FileStep → Except FileFault Directory
  | create name => d.create name
  | append name octets => d.append name octets
  | move source target => d.rename source target
  | sync => .ok d

/-- Run operations up to the first that fails. -/
def runSteps (d : Directory) : List FileStep → Directory × Except FileFault Unit
  | [] => (d, .ok ())
  | s :: rest =>
    match s.apply d with
    | .ok d' => runSteps d' rest
    | .error f => (d, .error f)

namespace Snapshot

/-! ### The operations of a snapshot -/

/-- Name under which a file is written before it is moved. -/
def temporary (name : String) : String := "." ++ name ++ ".tmp"

/-- Write a whole file. -/
def fileSteps (name contents : String) : List FileStep :=
  [.create (temporary name), .append (temporary name) (Text.octetsOf contents),
    .move (temporary name) name]

/-- Name of the file of a peer. -/
def peerFileName (p : Peer) : String := p.id.text ++ ".peer"

/-- Name of the descriptor. -/
def descriptorName (s : Snapshot) : String := s.clusterId.text ++ ".raft"

/-- The operations that put a snapshot into a directory. -/
def steps (s : Snapshot) : List FileStep :=
  s.peers.flatMap (fun p => fileSteps (peerFileName p) (s.peerFile p))
    ++ .sync :: fileSteps s.descriptorName s.descriptor ++ [.sync]

/-- The names of the files, the descriptor last. -/
def fileNames (s : Snapshot) : List String := s.peers.map peerFileName ++ [s.descriptorName]

/-! ### Running them -/

/-- Put a snapshot into a directory. -/
def writeInto (s : Snapshot) (d : Directory) : Directory × Except FileFault (List String) :=
  let (d, outcome) := runSteps d s.steps
  (d, outcome.map fun _ => s.fileNames)

/-- Put a snapshot into the directory at a path of a volume, which is made if
it is not there. -/
def writeTo (s : Snapshot) (v : Volume) (path : String) :
    Volume × Except Error (List String) :=
  match v.makeDirectory path with
  | .error f => (v, .error f.error)
  | .ok v =>
    match v.directory path with
    | .error f => (v, .error f.error)
    | .ok d =>
      let (d, outcome) := s.writeInto d
      (v.setDirectory path d, outcome.mapError FileFault.error)

end Snapshot

end Rendezvous
