/-
Rendezvous/Http/Exchange.lean

Requests over a network.

An exchange sends a request to an address and brings back a reply, or nothing
when the request could not be sent.  The state of everything that is reached in
this way goes through it.
-/
import Rendezvous.Address
import Rendezvous.Http.Request

namespace Rendezvous.Http

/-- A way to reach other hosts. -/
abbrev Exchange (σ : Type) := SocketAddr → Request → σ → Option Reply × σ

/-- A network on which nothing can be reached. -/
def Exchange.unreachable {σ : Type} : Exchange σ := fun _ _ s => (none, s)

/-- The words for a request that could not be sent. -/
def notSent : String := "error sending request"

/-- The words for a reply whose JSON is not what was expected. -/
def notDecoded : String := "error decoding response body"

/-- The usual phrases for statuses. -/
def statusPhrases : List (Nat × String) :=
  [(100, "Continue"), (101, "Switching Protocols"), (102, "Processing"), (200, "OK"),
    (201, "Created"), (202, "Accepted"), (203, "Non Authoritative Information"),
    (204, "No Content"), (205, "Reset Content"), (206, "Partial Content"),
    (207, "Multi-Status"), (208, "Already Reported"), (226, "IM Used"),
    (300, "Multiple Choices"), (301, "Moved Permanently"), (302, "Found"), (303, "See Other"),
    (304, "Not Modified"), (305, "Use Proxy"), (307, "Temporary Redirect"),
    (308, "Permanent Redirect"), (400, "Bad Request"), (401, "Unauthorized"),
    (402, "Payment Required"), (403, "Forbidden"), (404, "Not Found"),
    (405, "Method Not Allowed"), (406, "Not Acceptable"),
    (407, "Proxy Authentication Required"), (408, "Request Timeout"), (409, "Conflict"),
    (410, "Gone"), (411, "Length Required"), (412, "Precondition Failed"),
    (413, "Payload Too Large"), (414, "URI Too Long"), (415, "Unsupported Media Type"),
    (416, "Range Not Satisfiable"), (417, "Expectation Failed"), (418, "I'm a teapot"),
    (421, "Misdirected Request"), (422, "Unprocessable Entity"), (423, "Locked"),
    (424, "Failed Dependency"), (426, "Upgrade Required"), (428, "Precondition Required"),
    (429, "Too Many Requests"), (431, "Request Header Fields Too Large"),
    (451, "Unavailable For Legal Reasons"), (500, "Internal Server Error"),
    (501, "Not Implemented"), (502, "Bad Gateway"), (503, "Service Unavailable"),
    (504, "Gateway Timeout"), (505, "HTTP Version Not Supported"),
    (506, "Variant Also Negotiates"), (507, "Insufficient Storage"), (508, "Loop Detected"),
    (510, "Not Extended"), (511, "Network Authentication Required")]

/-- A status with its phrase. -/
def statusText (status : Nat) : String :=
  Text.decimal status ++ " " ++ (statusPhrases.lookup status).getD "<unknown status code>"

/-- The text of the body of a reply. -/
def Reply.bodyText (r : Reply) : String := Text.decodeLossy r.body

end Rendezvous.Http
