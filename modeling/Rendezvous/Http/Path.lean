/-
Rendezvous/Http/Path.lean

The paths that proxies, members and agents serve.
-/

namespace Rendezvous.Http.Path

def root : String := "/"
def health : String := "/health"
def about : String := "/about"
def config : String := "/config"
def kv : String := "/kv"
def members : String := "/gossip/members"
def sync : String := "/gossip/sync"
def apply : String := "/engine/apply"
def read : String := "/engine/read"
def leader : String := "/engine/leader"

end Rendezvous.Http.Path

namespace Rendezvous.Http

/-- The path under which a key is read, with the key as it is. -/
def keyPath (key : String) : String := Path.kv ++ "/" ++ key

end Rendezvous.Http
