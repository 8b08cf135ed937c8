/-
Rendezvous/Proofs/Refresh.lean

A refresh lists the live proxies.

Whoever answers, a substrate lists members that carry the mark of a proxy (`Answer.marked`).
Of these a refresh takes the ones that are alive and advertise a port, and makes new
candidates of their addresses:

    a ∈ p'.current.addrs  ↔  some alive proxy serves at a      (`ServesAt`)

Candidates are told apart by the number of their refresh, so a new one shows no failures
if all failures so far are of lower numbers.  That is so for every pool that has been used
as pools are (`Reached.dated`): each use keeps the failures below the next number.  A query
that fails changes nothing.

The number that a refresh tells is one of members and not of addresses: it is the size of
the pool exactly if no two members serve at one address (`refresh_counts`).
-/
import Rendezvous.Client.Watcher
import Rendezvous.Gossip.Agent
import Rendezvous.Gossip.Board
import Rendezvous.Gossip.Query
import Rendezvous.Proofs.Retries

namespace Rendezvous

/-! ### Pools that have been used -/

namespace Pool

variable {p : Pool} {c : Candidate} {d : Draws} {used : Nat} {addrs : List SocketAddr}

/-- A pool that has been refreshed, drawn from and told of failures of candidates that it
has had, in any order. -/
inductive Reached : Pool → Prop
  | new : Reached {}
  | refresh {p : Pool} (h : Reached p) (addrs : List SocketAddr) : Reached (p.act (.refresh addrs))
  | pick {p : Pool} (h : Reached p) (d : Draws) : Reached (p.act (.pick d))
  | fail {p : Pool} (h : Reached p) {c : Candidate} (hmade : c.refresh < p.nextId) :
      Reached (p.act (.fail c))

/-- Who has failed is from an earlier refresh than the next one. -/
theorem Reached.dated (h : p.Reached) : ∀ c ∈ p.failed, c.refresh < p.nextId := by
  induction h with
  | new => exact nofun
  | refresh h addrs ih => exact fun c hc => Nat.lt_succ_of_lt (ih c hc)
  | @pick p h d ih =>
    intro c hc
    obtain ⟨out, hout⟩ := sifted_pickFrom d 0 p
    exact Nat.lt_of_lt_of_le (ih c (hout.failed ▸ hc)) hout.nextId_le
  | fail h hmade ih =>
    intro c hc
    rcases List.mem_cons.mp hc with rfl | hold
    · exact hmade
    · exact ih c hold

/-- **New candidates show no failures,** whatever has been recorded. -/
theorem Reached.failures_replace (h : p.Reached) (hc : c ∈ (p.replace addrs).current.candidates) :
    (p.replace addrs).failures c = 0 := by
  have hnew : c ∉ p.failed := by
    intro hfailed
    have hlt := h.dated c hfailed
    rw [(History.mem_replace.mp hc).1] at hlt
    exact Nat.lt_irrefl _ hlt
  show p.failed.count c % Nat.pow 2 32 = 0
  rw [List.count_eq_zero.mpr hnew, Nat.zero_mod]

/-- A refresh installs one candidate for each address. -/
theorem size_replace :
    (p.replace addrs).current.size = (SocketAddr.listing addrs).length := List.length_map _

end Pool

namespace Watcher

open Http

variable {p : Pool} {m : Member} {a : SocketAddr} {members listed : List Member}

/-! ### Proxies -/

/-- Some alive proxy serves at an address: it has the port of its tag. -/
def ServesAt (members : List Member) (a : SocketAddr) : Prop :=
  ∃ m ∈ members, m.status = .alive ∧ m.tags.get? Tag.role = some NodeRole.proxy.text
    ∧ ∃ text port, m.tags.get? Tag.httpPort = some text ∧ Text.port? text = some port
      ∧ a = ⟨m.addr, port, 0⟩

/-- The members that carry the mark of a proxy. -/
def proxiesOf (members : List Member) : List Member :=
  members.filter fun m => m.hasTag Tag.role NodeRole.proxy.text

theorem mem_proxiesOf : m ∈ proxiesOf members
    ↔ m ∈ members ∧ m.tags.get? Tag.role = some NodeRole.proxy.text := by
  rw [proxiesOf, List.mem_filter, Member.hasTag, decide_eq_true_eq]

/-- What a substrate says when it is asked for the proxies. -/
inductive Answer : Except Error (List Member) → Prop
  | board (b : Board) : Answer (b.membersWithTag Tag.role NodeRole.proxy.text)
  | agent (a : Agent) (time : Nat) :
      Answer (.ok (a.membersWithTag time Tag.role NodeRole.proxy.text))
  | query {σ : Type} (net : Exchange σ) (agents : List SocketAddr) (s : σ) :
      Answer (Query.membersWithTag net agents Tag.role NodeRole.proxy.text s).1

/-- Substrates list proxies only. -/
theorem Answer.marked (h : Answer (.ok listed)) : proxiesOf listed = listed := by
  have hmarked : ∀ known, proxiesOf (proxiesOf known) = proxiesOf known := fun known =>
    List.filter_filter.trans (by simp only [Bool.and_self]; rfl)
  generalize hquery : (Except.ok listed : Except Error (List Member)) = query at h
  cases h with
  | board b =>
    rw [Board.membersWithTag] at hquery
    split at hquery
    · cases hquery
    · cases hquery
      exact hmarked b.members.values
  | agent a time =>
    cases hquery
    exact hmarked (a.view time)
  | query net agents s =>
    rw [Query.membersWithTag] at hquery
    rcases hasked : Query.askFrom net _ agents s with ⟨asked, s'⟩
    rw [hasked] at hquery
    cases asked with
    | error e => cases hquery
    | ok known =>
      cases hquery
      exact hmarked known

theorem proxyAddr?_eq_some_iff : proxyAddr? m = some a ↔ m.status = .alive
    ∧ ∃ text port, m.tags.get? Tag.httpPort = some text ∧ Text.port? text = some port
      ∧ a = ⟨m.addr, port, 0⟩ := by
  by_cases halive : m.status = .alive
  · rw [proxyAddr?, if_pos halive, Option.map_eq_some_iff, and_iff_right halive]
    simp only [Option.bind_eq_some_iff]
    constructor
    · rintro ⟨port, ⟨text, htag, hport⟩, rfl⟩
      exact ⟨text, port, htag, hport, rfl⟩
    · rintro ⟨text, port, htag, hport, rfl⟩
      exact ⟨port, ⟨text, htag, hport⟩, rfl⟩
  · rw [proxyAddr?, if_neg halive]
    simp [halive]

/-- The addresses of a refresh are those at which proxies serve. -/
theorem mem_filterMap_proxyAddr? : a ∈ (proxiesOf members).filterMap proxyAddr?
    ↔ ServesAt members a := by
  simp only [List.mem_filterMap, mem_proxiesOf, proxyAddr?_eq_some_iff, ServesAt, and_assoc]
  refine exists_congr fun m => and_congr_right fun _ => ?_
  rw [← and_assoc, and_comm (a := _ = some _), and_assoc]

/-! ### A refresh -/

/-- A pool with the live proxies among some members, none of which shows failures. -/
structure Installed (members : List Member) (p : Pool) : Prop where
  ascending : p.current.addrs.Pairwise SocketAddr.Before
  mem_iff : ∀ a, a ∈ p.current.addrs ↔ ServesAt members a
  unharmed : ∀ c ∈ p.current.candidates, p.failures c = 0

theorem installed_replace (h : p.Reached) (members : List Member) :
    Installed members (p.replace ((proxiesOf members).filterMap proxyAddr?)) where
  ascending := by
    rw [Pool.addrs_replace]
    exact SocketAddr.ascending_listing _
  mem_iff a := by
    rw [Pool.addrs_replace, SocketAddr.mem_listing, mem_filterMap_proxyAddr?]
  unharmed _ hc := h.failures_replace hc

theorem refreshStep_ok {policy : QueryErrorPolicy} {signal : Signal} (hrun : signal.stop = false)
    (listed : List Member) (p : Pool) : refreshStep policy signal (.ok listed) p
      = (.asleep, p.replace (listed.filterMap proxyAddr?)) := by
  simp [refreshStep, refresh, hrun]

/-- A refresh leaves the pool alone when its query fails, and a watcher goes on with the
pool that the refresh has left, or ends with it. -/
theorem refreshStep_error {policy : QueryErrorPolicy} {signal : Signal} (e : Error) (p : Pool) :
    (refreshStep policy signal (.error e) p).2 = p := by
  by_cases hstop : signal.stop = true
  · simp [refreshStep, hstop]
  · cases policy <;> simp [refreshStep, refresh, hstop]

/-- **A refresh lists exactly the live proxies.**  Whatever members are known, in whatever
order, the addresses of those that are alive, marked as proxies and have a usable port
become the pool, in strictly ascending order and with no failures, whatever has happened to
the pool.  Substrates list marked members only.  If the query fails its error comes back,
and the pool is left as it was, also by a watcher. -/
theorem refresh_installs (h : p.Reached) (members : List Member) (policy : QueryErrorPolicy) :
    (∃ n p', refresh (.ok (proxiesOf members)) p = (.ok n, p')
      ∧ (∀ signal : Signal, signal.stop = false →
        refreshStep policy signal (.ok (proxiesOf members)) p = (.asleep, p'))
      ∧ Installed members p')
    ∧ (∀ listed, Answer (.ok listed) → proxiesOf listed = listed)
    ∧ ∀ e, refresh (.error e) p = (.error e, p)
      ∧ ∀ signal, (refreshStep policy signal (.error e) p).2 = p := by
  refine ⟨⟨_, _, rfl, fun signal hrun => refreshStep_ok hrun _ p, installed_replace h members⟩,
    fun _ => Answer.marked, fun e => ⟨rfl, fun signal => refreshStep_error e p⟩⟩

/-- An address that two of the members below advertise. -/
def stall : SocketAddr := .atPort 80

/-- A member with some tags. -/
def trader (name : String) (addr : IpAddr) (status : MemberStatus)
    (tags : List (String × String)) : Member :=
  ⟨name, addr, status, tags.foldl (fun t e => t.insert e.1 e.2) Table.empty⟩

/-- Two proxies at one address, one elsewhere, and others that are no live proxies or have
no port. -/
def market : List Member :=
  [trader "a" (.v6 (.zero 16)) .alive [("Type", "PROXY"), ("Hport", "9")],
    trader "b" stall.ip .alive [("Type", "PROXY"), ("Hport", "80")],
    trader "c" stall.ip .alive [("Type", "PROXY"), ("Hport", "+080")],
    trader "d" stall.ip .failed [("Type", "PROXY"), ("Hport", "81")],
    trader "e" stall.ip .alive [("Type", "PMDB_SERVER"), ("Hport", "82")],
    trader "f" stall.ip .alive [("Type", "PROXY"), ("Hport", "65536")]]

/-- A pool whose only candidate has failed. -/
def battered : Pool := (Pool.act {} (.refresh [stall])).act (.fail ⟨1, stall⟩)

/-- The address that failed is listed again and shows no failure. -/
theorem refresh_installs_market :
    battered.Reached ∧ battered.failures ⟨1, stall⟩ = 1
    ∧ ∃ n p', refresh (.ok (proxiesOf market)) battered = (.ok n, p')
      ∧ ∃ c ∈ p'.current.candidates, c.addr = stall ∧ p'.failures c = 0 := by
  have hreached : battered.Reached := (Pool.Reached.new.refresh [stall]).fail (Nat.lt_succ_self 1)
  refine ⟨hreached, by decide, ?_⟩
  obtain ⟨⟨n, p', hrefresh, -, hinstalled⟩, -⟩ := refresh_installs hreached market .retry
  have hserves : ServesAt market stall :=
    ⟨market[1], by simp [market], by decide, by decide, "80", 80, by decide, by decide, rfl⟩
  obtain ⟨c, hc, haddr⟩ := List.mem_map.mp ((hinstalled.mem_iff stall).mpr hserves)
  exact ⟨n, p', hrefresh, c, hc, haddr, hinstalled.unharmed c hc⟩

/-! ### The number that a refresh tells -/

/-- How many of some members serve at an address. -/
def serving (listed : List Member) (a : SocketAddr) : Nat :=
  listed.countP fun m => proxyAddr? m = some a

theorem serving_eq_count : serving listed a = (listed.filterMap proxyAddr?).count a := by
  rw [List.count_filterMap, serving]
  exact List.countP_congr fun m _ => by rw [decide_eq_true_eq, beq_iff_eq]

/-- **A refresh counts members, and the pool has addresses.**  The number that a refresh
tells is, over all addresses that it installs, how many members serve at them.  Each of
these is served by one or more, so the pool is never larger than the number, and both are
the same exactly if no address is served by two. -/
theorem refresh_counts (listed : List Member) (p : Pool) :
    ∃ n p', refresh (.ok listed) p = (.ok n, p')
      ∧ n = (p'.current.addrs.map (serving listed)).sum
      ∧ (∀ a, a ∈ p'.current.addrs ↔ 0 < serving listed a)
      ∧ p'.current.size ≤ n
      ∧ (n = p'.current.size ↔ ∀ a, serving listed a ≤ 1) := by
  have hserving : serving listed = (listed.filterMap proxyAddr?).count :=
    funext fun a => serving_eq_count
  have haddrs : (p.replace (listed.filterMap proxyAddr?)).current.addrs
      = SocketAddr.listing (listed.filterMap proxyAddr?) := Pool.addrs_replace
  refine ⟨_, _, rfl, ?_, ?_, ?_, ?_⟩
  · rw [haddrs, hserving, SocketAddr.sum_count_listing]
  · intro a
    rw [haddrs, hserving, SocketAddr.mem_listing, List.count_pos_iff]
  · rw [Pool.size_replace]
    exact SocketAddr.length_listing_le _
  · rw [Pool.size_replace, hserving, eq_comm, SocketAddr.length_listing_eq_iff,
      List.nodup_iff_count_le_one]

/-- A board that two proxies have joined at one address; both advertise the same port. -/
def doubled : Except Error Board := do
  let tags : TagSet := Table.ofList [("Type", "PROXY"), ("Hport", "80")]
  let b ← (({} : Board).join "p" stall.ip).publish "p" tags
  (b.join "q" stall.ip).publish "q" tags

/-- **The number is not that of the candidates**: two proxies are counted, and one candidate
is installed. -/
theorem shared_address_counted_twice : ∃ b p', doubled = .ok b
    ∧ refresh (b.membersWithTag Tag.role NodeRole.proxy.text) {} = (.ok 2, p')
    ∧ p'.current.size = 1 := by
  obtain ⟨b, hb, haddrs⟩ : ∃ b, doubled = .ok b
      ∧ (b.membersWithTag Tag.role NodeRole.proxy.text).map (List.filterMap proxyAddr?)
        = .ok [stall, stall] := ⟨_, rfl, by decide⟩
  rcases hlisted : b.membersWithTag Tag.role NodeRole.proxy.text with e | listed
  · rw [hlisted] at haddrs
    cases haddrs
  · rw [hlisted] at haddrs
    have hstalls : listed.filterMap proxyAddr? = [stall, stall] := Except.ok.inj haddrs
    refine ⟨b, Pool.replace {} [stall, stall], hb, ?_, ?_⟩
    · simp only [hlisted, refresh, hstalls]
      rfl
    · rw [Pool.size_replace, (SocketAddr.listing_perm_dedup _).length_eq]
      decide

end Watcher

end Rendezvous
