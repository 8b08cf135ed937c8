/-
Rendezvous/Proofs/Network.lean

Agents that gossip.

A network has any number of agents, each on a node of its own, and the messages
between them.  One event is what an agent does without letting go of a lock, or
one merge: publishing, marking the own record as left, beating and sending a
request, taking in a request or a reply, and the two looks at its records with
which the handler of a request makes up the reply, first at those of the others
and then at its own.

Messages are never taken away.  Whoever serves a request or collects a reply
names it by its place, so a message may arrive late, out of turn, any number of
times or never; and any agent may serve any request, whatever the addresses.

Each event is a turn of one agent at most (`turn_step`), and a relation that
every turn keeps is kept by every run (`run_induction`).  The rounds and the
answers of the program are runs of a few events (`run_round`, `run_answer`).
-/
import Mathlib.Logic.Function.Basic
import Rendezvous.Proofs.Agent
import Rendezvous.Service.Agent

namespace Rendezvous.Gossip

/-! ### Agents and messages -/

/-- Records between agents, with the agent that has sent the request or is to
get the reply. -/
structure Message (ι : Type) where
  client : ι
  records : List MemberRecord

/-- A request that an agent has taken in and is to answer. -/
structure Handler (ι : Type) where
  server : ι
  client : ι

/-- A reply in the making, with the records of the other members. -/
structure Draft (ι : Type) extends Handler ι where
  others : List MemberRecord

/-- Agents, and all that has ever been on its way between them. -/
structure Network (ι : Type) where
  agents : ι → Agent
  requests : List (Message ι) := []
  handlers : List (Handler ι) := []
  drafts : List (Draft ι) := []
  replies : List (Message ι) := []

/-- What can happen next. -/
inductive Event (ι : Type) where
  | publish (i : ι) (node : String) (tags : TagSet)
  | markLeft (i : ι)
  | send (i : ι)
  | serve (i : ι) (request : Nat) (time : Nat)
  | gather (handler : Nat)
  | answer (draft : Nat)
  | collect (reply : Nat) (time : Nat)
  | stop (i : ι)

/-- What an agent is started with. -/
structure Host where
  name : String
  addr : SocketAddr
  seeds : List SocketAddr
  failureTimeout : Elapsed

namespace Network

variable {ι : Type} [DecidableEq ι]

/-- Put an agent in place of one. -/
def set (n : Network ι) (i : ι) (a : Agent) : Network ι :=
  { n with agents := Function.update n.agents i a }

/-- One event; one that names no message changes nothing. -/
def step (n : Network ι) : Event ι → Network ι
  | .publish i node tags => n.set i ((n.agents i).publishTags node tags).2
  | .markLeft i => n.set i (n.agents i).markLeft
  | .send i =>
    let a := (n.agents i).beat
    { n.set i a with requests := n.requests ++ [⟨i, a.records⟩] }
  | .serve i k time =>
    match n.requests[k]? with
    | some m =>
      { n.set i ((n.agents i).merge time m.records) with
        handlers := n.handlers ++ [⟨i, m.client⟩] }
    | none => n
  | .gather k =>
    match n.handlers[k]? with
    | some h => { n with drafts := n.drafts ++ [⟨h, (n.agents h.server).others⟩] }
    | none => n
  | .answer k =>
    match n.drafts[k]? with
    | some d =>
      { n with replies := n.replies ++ [⟨d.client, d.others ++ [(n.agents d.server).own]⟩] }
    | none => n
  | .collect k time =>
    match n.replies[k]? with
    | some m => n.set m.client ((n.agents m.client).merge time m.records)
    | none => n
  | .stop i => n.set i { n.agents i with running := false }

/-- One event after the other. -/
def run (n : Network ι) (events : List (Event ι)) : Network ι := events.foldl step n

/-- Agents that have just been started, and no messages. -/
def start (hosts : ι → Host) : Network ι :=
  { agents := fun i =>
      .create (hosts i).name (hosts i).addr (hosts i).seeds (hosts i).failureTimeout }

/-- The records in tables and messages. -/
inductive Holds (n : Network ι) : MemberRecord → Prop
  | table {i r} : r ∈ (n.agents i).others → Holds n r
  | request {m r} : m ∈ n.requests → r ∈ m.records → Holds n r
  | draft {d r} : d ∈ n.drafts → r ∈ d.others → Holds n r
  | reply {m r} : m ∈ n.replies → r ∈ m.records → Holds n r

theorem run_append (n : Network ι) (l l' : List (Event ι)) :
    n.run (l ++ l') = (n.run l).run l' :=
  List.foldl_append

theorem agents_set (n : Network ι) (i j : ι) (a : Agent) :
    (n.set i a).agents j = if j = i then a else n.agents j := by
  by_cases h : j = i
  · subst h
    rw [if_pos rfl]
    exact Function.update_self ..
  · rw [if_neg h]
    exact Function.update_of_ne h ..

theorem agents_send (n : Network ι) (i : ι) : (n.step (.send i)).agents i = (n.agents i).beat := by
  show (n.set i (n.agents i).beat).agents i = _
  rw [agents_set, if_pos rfl]

/-- An answer is made of what agents are, and changes none of them. -/
theorem agents_answer (n : Network ι) (k : Nat) : (n.step (.answer k)).agents = n.agents := by
  rw [step]
  rcases n.drafts[k]? with _ | d <;> rfl

/-! ### One event of one agent -/

/-- What can become of an agent by one event. -/
inductive Turn (a : Agent) : Agent → Prop
  | idle : Turn a a
  | publish (tags : TagSet) : Turn a (a.advertising tags)
  | markLeft : Turn a a.markLeft
  | beat : Turn a a.beat
  | merge (time : Nat) (l : List MemberRecord) : Turn a (a.merge time l)
  | stop : Turn a { a with running := false }

theorem turn_set {n : Network ι} {i : ι} {a : Agent} (h : Turn (n.agents i) a) (j : ι) :
    Turn (n.agents j) ((n.set i a).agents j) := by
  rw [agents_set]
  by_cases hj : j = i
  · subst hj
    rw [if_pos rfl]
    exact h
  · rw [if_neg hj]
    exact Turn.idle

/-- Whatever happens, each agent takes a turn or stays as it is. -/
theorem turn_step (n : Network ι) (e : Event ι) (j : ι) :
    Turn (n.agents j) ((n.step e).agents j) := by
  cases e with
  | publish i node tags =>
    refine turn_set ?_ j
    by_cases hname : node = (n.agents i).name
    · rw [Agent.publishTags_own hname]
      exact Turn.publish tags
    · rw [Agent.publishTags_other hname]
      exact Turn.idle
  | markLeft i => exact turn_set Turn.markLeft j
  | send i => exact turn_set Turn.beat j
  | serve i k time =>
    rw [step]
    rcases n.requests[k]? with _ | m
    · exact Turn.idle
    · exact turn_set (Turn.merge time m.records) j
  | gather k =>
    rw [step]
    rcases n.handlers[k]? with _ | h <;> exact Turn.idle
  | answer k =>
    rw [step]
    rcases n.drafts[k]? with _ | d <;> exact Turn.idle
  | collect k time =>
    rw [step]
    rcases n.replies[k]? with _ | m
    · exact Turn.idle
    · exact turn_set (Turn.merge time m.records) j
  | stop i => exact turn_set Turn.stop j

/-- A relation between agents that every turn keeps is kept by every run. -/
theorem run_induction {R : Agent → Agent → Prop} (hrefl : ∀ a, R a a)
    (htrans : ∀ {a b c}, R a b → R b c → R a c) (hturn : ∀ {a b}, Turn a b → R a b)
    (n : Network ι) (events : List (Event ι)) (i : ι) :
    R (n.agents i) ((n.run events).agents i) := by
  induction events generalizing n with
  | nil => exact hrefl _
  | cons e rest ih => exact htrans (hturn (turn_step n e i)) (ih (n.step e))

/-! ### Rounds and answers

What a node does at one stroke is a run of a few events.
-/

theorem run_collects {replies : List (Message ι)} {i : ι} {time : Nat} {ks : List Nat}
    {answers : List (List MemberRecord)}
    (h : List.Forall₂ (fun k l => replies[k]? = some ⟨i, l⟩) ks answers)
    {n : Network ι} (hn : n.replies = replies) :
    (n.run (ks.map fun k => .collect k time)).agents i
      = answers.foldl (Agent.merge time) (n.agents i) := by
  induction h generalizing n with
  | nil => rfl
  | cons hk hrest ih =>
    rename_i k l ks answers
    have hstep : n.step (.collect k time) = n.set i ((n.agents i).merge time l) := by
      rw [step, hn, hk]
    have hagent : (n.step (.collect k time)).agents i = (n.agents i).merge time l := by
      rw [hstep, agents_set, if_pos rfl]
    show ((n.step (.collect k time)).run _).agents i
      = answers.foldl (Agent.merge time) ((n.agents i).merge time l)
    rw [← hagent]
    -- collecting takes no reply away
    exact ih (hstep ▸ hn)

/-- A round is a request and the collecting of the answers to it, whenever
these have arrived. -/
theorem run_round {σ : Type} (net : Http.Exchange σ) (s : σ) {n n' : Network ι} {i : ι}
    {time : Nat} {ks : List Nat} (hagent : n'.agents i = (n.step (.send i)).agents i)
    (h : List.Forall₂ (fun k l => n'.replies[k]? = some ⟨i, l⟩) ks
      (Agent.exchangeAll net (n.agents i).beat.records (n.agents i).beat.targets s).1) :
    (n'.run (ks.map fun k => .collect k time)).agents i
      = ((n.agents i).round net time s).1 := by
  have hbeat : n'.agents i = (n.agents i).beat := hagent.trans (agents_send n i)
  rw [run_collects h rfl, hbeat]
  rfl

/-- Serving a request without a pause is what the service does with it. -/
theorem run_answer {n : Network ι} {i : ι} {k time : Nat} {m : Message ι} {q : Http.Request}
    (hk : n.requests[k]? = some m) (hq : q.json Agent.recordsDecoder = .ok m.records) :
    ∃ records, (n.agents i).answer time q .sync
        = (.json 200 (Agent.recordsTree records),
          (n.run [.serve i k time, .gather n.handlers.length, .answer n.drafts.length]).agents i)
      ∧ (n.run [.serve i k time, .gather n.handlers.length, .answer n.drafts.length]).replies
        = n.replies ++ [⟨m.client, records⟩] := by
  let a := (n.agents i).merge time m.records
  let h : Handler ι := ⟨i, m.client⟩
  have hset : (n.set i a).agents i = a := by rw [agents_set, if_pos rfl]
  have hserve : n.step (.serve i k time) = { n.set i a with handlers := n.handlers ++ [h] } := by
    rw [step, hk]
  have hgather : (n.step (.serve i k time)).step (.gather n.handlers.length)
      = { n.set i a with
          handlers := n.handlers ++ [h]
          drafts := n.drafts ++ [⟨h, ((n.set i a).agents i).others⟩] } := by
    rw [hserve, step, List.getElem?_concat_length]
    rfl
  have hanswer : n.run [.serve i k time, .gather n.handlers.length, .answer n.drafts.length]
      = { n.set i a with
          handlers := n.handlers ++ [h]
          drafts := n.drafts ++ [⟨h, ((n.set i a).agents i).others⟩]
          replies := n.replies ++ [⟨m.client,
            ((n.set i a).agents i).others ++ [((n.set i a).agents i).own]⟩] } := by
    show ((n.step (.serve i k time)).step (.gather n.handlers.length)).step
      (.answer n.drafts.length) = _
    -- the draft to answer is the one that was just made
    rw [hgather, step, List.getElem?_concat_length]
    rfl
  refine ⟨a.records, ?_, ?_⟩
  · rw [hanswer, Agent.answer, hq]
    show _ = (_, (n.set i a).agents i)
    rw [hset]
  · rw [hanswer]
    show n.replies ++ _ = _
    rw [hset]
    rfl

end Network

end Rendezvous.Gossip
