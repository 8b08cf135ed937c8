/-
Rendezvous/Proofs/KeyPath.lean

Keys in paths.

What a proxy reads from the path for a key need not be the key: some characters
are left out of a URL or end its path, dots climb, and a percent sign with two
digits is one octet.  A key survives exactly if none of this can happen to it
(`Readable`, `plan?_getRequest_iff`).

That it must be so is seen from lengths.  What is read is what one segment of
the path stands for, the segment is a part of the key, and on no way from the
key to what is read can a text become longer; so if it is the key again, nothing
was changed.
-/
import Rendezvous.Client.Smart
import Rendezvous.Proofs.Url
import Rendezvous.Service.Proxy

namespace Rendezvous

namespace Http

/-! ### Routes -/

theorem Pattern.after?_eq_some_iff {front l rest : List Char} :
    after? front l = some rest ↔ l = front ++ rest := by
  induction front generalizing l with
  | nil => exact ⟨fun h => Option.some.inj h, fun h => congrArg some h⟩
  | cons a front ih =>
    cases l with
    | nil => exact ⟨nofun, nofun⟩
    | cons b l =>
      rw [after?, List.cons_append, List.cons.injEq]
      split
      · rename_i hab
        rw [ih]
        exact ⟨fun h => ⟨hab.symm, h⟩, fun h => h.2⟩
      · rename_i hab
        exact ⟨nofun, fun h => absurd h.1.symm hab⟩

theorem Pattern.match?_path_of_ne {s path : String} (h : path ≠ s) :
    (Pattern.path s).match? path = none := if_neg h

theorem Pattern.match?_below_eq_some_iff {s path segment : String} :
    (Pattern.below s).match? path = some segment
      ↔ path.toList = s.toList ++ ['/'] ++ segment.toList ∧ segment ≠ ""
        ∧ '/' ∉ segment.toList := by
  rw [match?]
  constructor
  · intro h
    split at h
    · rename_i rest hafter
      split at h
      · cases h
      · rename_i hrest
        obtain ⟨hne, hslash⟩ := not_or.mp hrest
        obtain rfl := Option.some.inj h
        rw [String.toList_ofList]
        refine ⟨after?_eq_some_iff.mp hafter, fun hempty => hne ?_, hslash⟩
        rw [String.ofList_eq_empty_iff.mp hempty]
        rfl
    · cases h
  · rintro ⟨hpath, hne, hslash⟩
    have hrest : ¬(segment.toList.isEmpty ∨ '/' ∈ segment.toList) := by
      rw [List.isEmpty_iff, String.toList_eq_nil_iff]
      exact not_or.mpr ⟨hne, hslash⟩
    rw [after?_eq_some_iff.mpr hpath]
    dsimp only
    rw [if_neg hrest, String.ofList_toList]

/-- A request that leads to an endpoint has a route there. -/
theorem exists_of_resolve {ε : Type} {routes : List (Route ε)} {r : Request} {e : ε}
    {segment : String} (h : resolve routes r = .endpoint e segment) :
    ∃ t ∈ routes, t.endpoint = e ∧ t.pattern.match? r.path = some segment := by
  rw [resolve] at h
  split at h
  · rename_i t segment' hfind
    split at h
    · cases h
      obtain ⟨t', ht', hmatch⟩ := List.exists_of_findSome?_eq_some hfind
      obtain ⟨segment, hsegment, heq⟩ := Option.map_eq_some_iff.mp hmatch
      cases heq
      exact ⟨t, ht', rfl, hsegment⟩
    · cases h
  · cases h

end Http

namespace Smart

open Http Text Url

variable {key segment : String}

/-- The path of a request for a key is made of the segments of the key. -/
theorem path_getRequest (key : String) :
    (getRequest key).path = String.ofList (joinSegments (segments key.toList)) := by
  obtain ⟨query, hquery, htarget⟩ := target_keyPath key
  have hplain : ∀ c ∈ joinSegments (segments key.toList), (c ≠ '?' && c ≠ '#') = true := by
    intro c hc
    obtain ⟨w, hw, hcw⟩ := List.mem_flatMap.mp hc
    obtain ⟨-, hquestion, hnumber⟩ := not_mem_segments hw
    rw [Bool.and_eq_true, decide_eq_true_eq, decide_eq_true_eq]
    rcases List.mem_cons.mp hcw with rfl | hcw
    · decide
    · exact ⟨fun heq => hquestion (heq ▸ hcw), fun heq => hnumber (heq ▸ hcw)⟩
  have hstop : query.takeWhile (fun c => c ≠ '?' && c ≠ '#') = [] := by
    rcases query with _ | ⟨c, query⟩
    · rfl
    · rw [hquery c rfl]
      rfl
  have htaken : (getRequest key).target.toList.takeWhile (fun c => c ≠ '?' && c ≠ '#')
      = joinSegments (segments key.toList) := by
    show ((target (keyPath key)).toList).takeWhile _ = _
    rw [htarget, List.takeWhile_append_of_pos hplain, hstop, List.append_nil]
  have hscheme : Request.afterScheme? (joinSegments (segments key.toList)) = none := by
    cases segments key.toList <;> rfl
  rw [Request.path, htaken, hscheme]
  rfl

/-- Only what is below the path of all keys leads to the reading of a key. -/
theorem resolve_get_iff {r : Request} (hmethod : r.method = Request.get) :
    resolve FrontEnd.routes r = .endpoint .get segment
      ↔ (Pattern.below Path.kv).match? r.path = some segment := by
  constructor
  · intro h
    obtain ⟨t, ht, hget, hmatch⟩ := exists_of_resolve h
    simp only [FrontEnd.routes, List.mem_cons, List.not_mem_nil, or_false] at ht
    rcases ht with rfl | rfl | rfl | rfl | rfl | rfl
    · cases hget
    · cases hget
    · cases hget
    · cases hget
    · cases hget
    · exact hmatch
  · intro hbelow
    obtain ⟨hpath, -, -⟩ := Pattern.match?_below_eq_some_iff.mp hbelow
    have hother : ∀ s : String, s.toList.take 4 ≠ Path.kv.toList ++ ['/'] →
        (Pattern.path s).match? r.path = none := by
      intro s hs
      refine Pattern.match?_path_of_ne fun heq => hs ?_
      rw [← heq, hpath]
      rfl
    have hfind : FrontEnd.routes.findSome? (fun t =>
        (t.pattern.match? r.path).map fun s => (t, s))
        = some (⟨.below Path.kv, Request.get, .get⟩, segment) := by
      simp only [FrontEnd.routes, List.findSome?_cons, hother Path.root (by decide),
        hother Path.health (by decide), hother Path.about (by decide),
        hother Path.config (by decide), hother Path.kv (by decide), hbelow, Option.map_none,
        Option.map_some]
    have haccepts :
        Route.accepts ⟨.below Path.kv, Request.get, FrontEnd.Endpoint.get⟩ r.method := by
      rw [hmethod]
      rfl
    rw [resolve, hfind]
    exact if_pos haccepts

/-- The path of a request for a key is below that of all keys if the key is one
segment. -/
theorem match?_path_getRequest_iff :
    (Pattern.below Path.kv).match? (getRequest key).path = some segment
      ↔ segments key.toList = [['k', 'v'], segment.toList] ∧ segment ≠ "" := by
  rw [Pattern.match?_below_eq_some_iff, path_getRequest, String.toList_ofList]
  constructor
  · rintro ⟨hjoin, hne, hslash⟩
    have hcut : cutAt (· == '/') (joinSegments (segments key.toList))
        = [] :: segments key.toList := cutAt_joinSegments fun w hw => (not_mem_segments hw).1
    have hsegment : ∀ c ∈ segment.toList, (c == '/') = false := by
      intro c hc
      exact beq_eq_false_iff_ne.mpr fun heq => hslash (heq ▸ hc)
    have hparts : cutAt (· == '/') (Path.kv.toList ++ ['/'] ++ segment.toList)
        = [] :: ['k', 'v'] :: cutAt (· == '/') segment.toList := rfl
    rw [hjoin, hparts, cutAt_eq_self hsegment] at hcut
    exact ⟨(List.cons.inj hcut).2.symm, hne⟩
  · rintro ⟨hsegments, hne⟩
    have hmem : segment.toList ∈ segments key.toList := by
      rw [hsegments]
      simp
    refine ⟨?_, hne, (not_mem_segments hmem).1⟩
    rw [hsegments]
    simp [joinSegments, Path.kv]

/-- **Where the request for a key leads**: to the reading of a key if its path
has one segment below that of all keys. -/
theorem resolve_getRequest_iff :
    resolve FrontEnd.routes (getRequest key) = .endpoint .get segment
      ↔ segments key.toList = [['k', 'v'], segment.toList] ∧ segment ≠ "" :=
  (resolve_get_iff rfl).trans match?_path_getRequest_iff

end Smart

/-! ### Keys that are read as they are -/

namespace Http

open Text

/-- A key that a URL changes in nothing. -/
structure Readable (key : String) : Prop where
  nonempty : key ≠ ""
  plain : ∀ c ∈ key.toList, c ∉ ['/', '\\', '?', '#', '\t', '\n', '\r']
  ended : ∀ c ∈ key.toList.getLast?, 32 < c.toNat
  ne_dot : key ≠ "."
  ne_dots : key ≠ ".."
  verbatim : Percent.Verbatim key.toList

namespace Url

variable {key : String}

theorem written_of_readable (h : Readable key) : written key.toList = key.toList := by
  refine written_eq_self_iff.mpr ⟨clean_eq_self_iff.mpr ⟨h.ended, fun c hc => ?_⟩, ?_, ?_⟩
  · have hplain := h.plain c hc
    simp only [List.mem_cons, List.not_mem_nil, or_false, not_or] at hplain
    simp [stays, hplain]
  · exact fun hc => h.plain '#' hc (by decide)
  · exact fun hc => h.plain '?' hc (by decide)

theorem segments_of_readable (h : Readable key) :
    segments key.toList = [['k', 'v'], escapeBy pathEscapes key.toList] := by
  have hcut : cutAt slashed key.toList = [key.toList] := by
    refine cutAt_eq_self fun c hc => ?_
    have hplain := h.plain c hc
    simp only [List.mem_cons, List.not_mem_nil, or_false, not_or] at hplain
    simp [slashed, hplain]
  have hdots : plainDots key.toList ≠ ['.', '.'] := by
    rw [plainDots_of_verbatim h.verbatim]
    exact fun heq => h.ne_dots (String.toList_inj.mp heq)
  have hdot : plainDots key.toList ≠ ['.'] := by
    rw [plainDots_of_verbatim h.verbatim]
    exact fun heq => h.ne_dot (String.toList_inj.mp heq)
  rw [segments, written_of_readable h, hcut, settle, if_neg (by decide), if_neg (by decide),
    settle, if_neg hdots, if_neg hdot]
  rfl

theorem readable_kv : Readable "kv" where
  nonempty := by decide
  plain := by simp
  ended := by simp
  ne_dot := by decide
  ne_dots := by decide
  verbatim := fun _ _ _ _ hin => absurd (hin.subset (List.mem_cons_self ..)) (by decide)

/-- A segment that is cut out of a key and has all that is read is the key. -/
theorem readable_of_mem_cutAt {s : List Char} (hs : s ∈ cutAt slashed (written key.toList))
    (hne : s ≠ []) (hdot : plainDots s ≠ ['.']) (hdots : plainDots s ≠ ['.', '.'])
    (hlength : (encodeUtf8 key.toList).length ≤ (Percent.octets s).length) : Readable key := by
  have hpart := sublist_of_mem_cutAt hs
  have hwhole := Nat.le_trans hlength (Percent.length_octets_le s)
  obtain rfl : s = key.toList :=
    eq_of_sublist_of_length (hpart.trans (written_sublist key.toList)) hwhole
  have hwritten : written key.toList = key.toList :=
    (written_sublist key.toList).eq_of_length_le hpart.length_le
  obtain ⟨hclean, hnumber, hquestion⟩ := written_eq_self_iff.mp hwritten
  obtain ⟨hended, hstays⟩ := clean_eq_self_iff.mp hclean
  refine ⟨fun h => hne ?_, fun c hc hbad => ?_, hended, ?_, ?_,
    Percent.verbatim_of_length hlength⟩
  · exact String.toList_eq_nil_iff.mpr h
  · have hslashed := eq_false_of_mem_cutAt hs hc
    have hstay := hstays c hc
    simp only [List.mem_cons, List.not_mem_nil, or_false] at hbad
    rcases hbad with rfl | rfl | rfl | rfl | rfl | rfl | rfl
    · cases hslashed
    · cases hslashed
    · exact hquestion hc
    · exact hnumber hc
    · cases hstay
    · cases hstay
    · cases hstay
  · rintro rfl
    exact hdot rfl
  · rintro rfl
    exact hdots rfl

/-- What is read from a segment is the key only if a URL changes nothing in it. -/
theorem readable_of_decode? {w : List Char} (hmem : w ∈ segments key.toList) (hne : w ≠ [])
    (hdecode : Percent.decode? (String.ofList w) = some key) : Readable key := by
  rcases mem_settle hmem with hnil | hempty | ⟨s, hs, hkeeps⟩
  · cases hnil
  · exact absurd hempty hne
  rw [hkeeps.escaped, decode?_escapeBy] at hdecode
  rcases List.mem_cons.mp hs with rfl | hs
  · have hkv : decodeUtf8? (Percent.octets "kv".toList) = some "kv" := by
      rw [Percent.octets_of_verbatim readable_kv.verbatim, decodeUtf8?_encodeUtf8,
        String.ofList_toList]
    obtain rfl : "kv" = key := Option.some.inj (hkv.symm.trans hdecode)
    exact readable_kv
  · refine readable_of_mem_cutAt hs (fun hempty => hne ?_) hkeeps.ne_dot hkeeps.ne_dots
      (length_of_decodeUtf8? hdecode)
    rw [hkeeps.escaped, hempty]
    rfl

end Url

end Http

namespace FrontEnd

open Http Url

variable {f : FrontEnd} {key key' : String} {r : Request}

/-- What a proxy is to do about a request that leads to an endpoint. -/
def plan? (f : FrontEnd) (r : Request) : Option Plan :=
  match resolve routes r with
  | .endpoint e segment => some (f.plan r segment e)
  | _ => none

theorem plan?_eq_read_iff :
    f.plan? r = some (.read key)
      ↔ ∃ segment, resolve routes r = .endpoint .get segment
        ∧ Percent.decode? segment = some key := by
  constructor
  · intro h
    rw [plan?] at h
    split at h
    · rename_i e segment hresolve
      have hplan := Option.some.inj h
      cases e with
      | root => cases hplan
      | health => cases hplan
      | about => cases hplan
      | config => cases hplan
      | put =>
        rw [plan] at hplan
        split at hplan <;> cases hplan
      | get =>
        rw [plan] at hplan
        split at hplan
        · rename_i hdecode
          cases hplan
          exact ⟨segment, hresolve, hdecode⟩
        · cases hplan
    · cases h
  · rintro ⟨segment, hresolve, hdecode⟩
    rw [plan?, hresolve]
    dsimp only
    rw [plan, hdecode]

/-- **A key is read as it was written** exactly if a URL changes nothing in it. -/
theorem plan?_getRequest_iff :
    f.plan? (Smart.getRequest key) = some (.read key) ↔ Readable key := by
  rw [plan?_eq_read_iff]
  constructor
  · rintro ⟨segment, hresolve, hdecode⟩
    obtain ⟨hsegments, hne⟩ := Smart.resolve_getRequest_iff.mp hresolve
    refine readable_of_decode? (w := segment.toList) ?_ ?_ ?_
    · rw [hsegments]
      simp
    · exact fun h => hne (String.toList_eq_nil_iff.mp h)
    · rwa [String.ofList_toList]
  · intro h
    have hdecode :
        Percent.decode? (String.ofList (escapeBy pathEscapes key.toList)) = some key := by
      rw [decode?_escapeBy, Percent.octets_of_verbatim h.verbatim, Text.decodeUtf8?_encodeUtf8,
        String.ofList_toList]
    refine ⟨_, ?_, hdecode⟩
    rw [Smart.resolve_getRequest_iff, String.toList_ofList]
    refine ⟨segments_of_readable h, fun hempty => h.nonempty ?_⟩
    rw [hempty] at hdecode
    exact Option.some.inj (hdecode.symm.trans (Text.decodeUtf8?_encodeUtf8 []))

end FrontEnd

end Rendezvous
