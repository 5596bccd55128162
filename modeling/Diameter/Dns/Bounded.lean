import Diameter.Dns.Search

/-!
# Dns.Bounded

The search is bounded by its configuration, whatever it is told. That it ends is in its definition:
`lookup` and `walk` recurse on the levels that are left of `maxDepth`. How often it asks the
resolver is kept below `maxQueries` by `query` alone, through which every call goes (`Keeps`).
-/

namespace Diameter.Dns

open Lib

variable {c : Counters} {after : SearchM Unit} {ways : List (Option (SearchM (List Candidate)))}
  {candidates : List Candidate}

namespace Search

variable {α β : Type} {d : Discoverer} {s : Search}

/-- The calls of the resolver are counted, and stay below the limit. -/
def Within (d : Discoverer) (c : Counters) : Prop :=
  c.asked.length = c.queries ∧ c.queries ≤ d.maxQueries

/-- A step of the search that does not exceed the limit. -/
def Keeps (d : Discoverer) (m : SearchM α) : Prop := ∀ c, Within d c → Within d (m c).2

theorem keeps_pure (a : α) : Keeps d (pure a) := fun _ h => h

theorem keeps_throw (e : Error) : Keeps d (throw e : SearchM α) := fun _ h => h

theorem keeps_ofExcept (r : Except Error α) : Keeps d (ofExcept r) := fun _ h => h

theorem keeps_observe : Keeps d observe := fun _ h => h

theorem within_bind {m : SearchM α} {f : α → SearchM β} (hm : Within d (m c).2)
    (hf : ∀ a, Keeps d (f a)) : Within d ((m >>= f) c).2 := by
  show Within d (StateT.run (ExceptT.bindCont f (m c).1) (m c).2).2
  cases (m c).1 with
  | ok a => exact hf a _ hm
  | error e => exact hm

theorem keeps_bind {m : SearchM α} {f : α → SearchM β} (hm : Keeps d m)
    (hf : ∀ a, Keeps d (f a)) : Keeps d (m >>= f) :=
  fun c hc => within_bind (hm c hc) hf

theorem keeps_attempt {m : SearchM α} (hm : Keeps d m) : Keeps d (attempt m) := hm

theorem keeps_ite {p : Prop} {_ : Decidable p} {m m' : SearchM α} (h : Keeps d m)
    (h' : Keeps d m') : Keeps d (if p then m else m') := by
  split
  · exact h
  · exact h'

/-- A check that ends the step. -/
theorem keeps_check {p : Prop} {_ : Decidable p} {e : Error} {m : SearchM α} (h : Keeps d m) :
    Keeps d (if p then throw e else m) :=
  keeps_ite (keeps_throw e) h

theorem keeps_checkContext : Keeps d (checkContext d) := by
  refine keeps_bind keeps_observe fun t => ?_
  split
  · exact keeps_throw _
  · exact keeps_pure _

/-- The call of the resolver is the one step that counts. -/
theorem within_ask (name : Bytes) (typ : RRType) (hc : Within s.d c)
    (hlt : c.queries < s.d.maxQueries) : Within s.d (s.ask name typ c).2 := by
  refine within_bind ⟨?_, hlt⟩ fun _ => keeps_bind keeps_observe fun t => ?_
  · show (c.asked ++ [(name, typ)]).length = c.queries + 1
    rw [List.length_append, hc.1, List.length_singleton]
  · split
    · exact keeps_throw _
    · exact keeps_pure _

theorem keeps_query (name : Bytes) (typ : RRType) : Keeps s.d (s.query name typ) := by
  refine keeps_bind keeps_checkContext fun _ c hc => ?_
  show Within s.d ((if c.queries ≥ s.d.maxQueries then throw [.limit] else _ :
    SearchM Answer) c).2
  split
  · exact hc
  · refine within_bind (within_ask name typ hc (by omega)) fun a => ?_
    refine keeps_bind keeps_checkContext fun _ => keeps_check (keeps_check (keeps_check ?_))
    exact keeps_bind keeps_observe fun _ => keeps_check (keeps_pure a)

theorem keeps_lookupFrom (typ : RRType) (noAlias : Bool) (n : Nat) (seen : List Bytes)
    (name : Bytes) (result : LookupResult) :
    Keeps s.d (s.lookupFrom typ noAlias n seen name result) := by
  induction n generalizing seen name result with
  | zero => exact keeps_throw _
  | succ n ih =>
    refine keeps_check (keeps_bind (keeps_query name typ) fun a => ?_)
    refine keeps_bind (keeps_ofExcept _) fun p => keeps_check ?_
    refine keeps_bind (keeps_ofExcept _) fun target => keeps_check ?_
    refine keeps_bind (keeps_ofExcept _) fun next => ?_
    split
    · exact keeps_pure _
    · exact ih _ _ _

theorem keeps_lookup (name : Bytes) (typ : RRType) (noAlias : Bool) :
    Keeps s.d (s.lookup name typ noAlias) :=
  keeps_bind (keeps_ofExcept _) fun _ => keeps_lookupFrom _ _ _ _ _ _

theorem keeps_findAddresses (host : Bytes) (noAlias : Bool) (typs : List RRType) (found : Found) :
    Keeps s.d (s.findAddresses host noAlias typs found) := by
  induction typs generalizing found with
  | nil => exact keeps_pure _
  | cons typ typs ih =>
    refine keeps_bind (keeps_attempt (keeps_lookup host typ noAlias)) fun outcome => ?_
    cases outcome with
    | error e => exact keeps_check (ih _)
    | ok data => exact keeps_ite (ih _) (keeps_ite (ih _) (keeps_throw _))

theorem keeps_resolveHost (host : Bytes) (transport : Transport) (port : UInt16) (expiry : Int)
    (names : List Bytes) (n : NAPTR) (srv : SRV) (noAlias : Bool) :
    Keeps s.d (s.resolveHost host transport port expiry names n srv noAlias) := by
  refine keeps_bind (keeps_findAddresses _ _ _ _) fun found => keeps_check (keeps_check ?_)
  exact keeps_bind keeps_observe fun _ => keeps_pure _

theorem keeps_collect (hafter : Keeps s.d after)
    (hways : ∀ way, some way ∈ ways → Keeps s.d way) (result : List Candidate) (failures : Error) :
    Keeps s.d (s.collect after ways result failures) := by
  induction ways generalizing result failures with
  | nil => exact keeps_ite (keeps_throw _) (keeps_pure _)
  | cons way ways ih =>
    cases way with
    | none => exact keeps_throw _
    | some way =>
      have hrest := ih fun w hw => hways w (List.mem_cons_of_mem _ hw)
      refine keeps_bind (keeps_attempt (hways way List.mem_cons_self)) fun outcome => ?_
      cases outcome with
      | error e => exact keeps_check (keeps_bind hafter fun _ => hrest _ _)
      | ok found => exact keeps_check (keeps_bind hafter fun _ => hrest _ _)

theorem keeps_resolveSRV (name : Bytes) (transport : Transport) (expiry : Int)
    (names : List Bytes) (n : NAPTR) : Keeps s.d (s.resolveSRV name transport expiry names n) := by
  refine keeps_bind (keeps_lookup _ _ _) fun data => keeps_check ?_
  refine keeps_bind (fun _ h => h) fun records => ?_
  refine keeps_collect (keeps_pure ()) (fun way hway => ?_) _ _
  obtain ⟨v, -, hv⟩ := List.mem_map.1 hway
  split at hv
  · cases hv
  · cases hv
    exact keeps_bind (keeps_ofExcept _) fun _ => keeps_check (keeps_resolveHost _ _ _ _ _ _ _ _)

theorem keeps_walk (transport : Transport) (fuel : Nat) (name : Bytes) (data : LookupResult)
    (expiry : Int) (names path : List Bytes) :
    Keeps s.d (s.walk transport fuel name data expiry names path) := by
  induction fuel generalizing name data expiry names path with
  | zero => exact keeps_throw _
  | succ fuel ih =>
    refine keeps_check (keeps_bind (keeps_ofExcept _) fun parsed => ?_)
    refine keeps_collect (keeps_pure ()) (fun way hway => ?_) _ _
    obtain ⟨⟨n, service⟩, -, hway⟩ := List.mem_map.1 hway
    cases hway
    refine keeps_ite (keeps_pure _) (keeps_check (keeps_ite (keeps_pure _) ?_))
    refine keeps_bind (keeps_ofExcept _) fun target => keeps_check ?_
    refine keeps_ite (keeps_resolveSRV _ _ _ _ _) (keeps_ite (keeps_resolveHost _ _ _ _ _ _ _ _) ?_)
    exact keeps_bind (keeps_lookup _ _ _) fun next => ih _ _ _ _ _

theorem bind_eq_ok {m : SearchM α} {f : α → SearchM β} {b : β}
    (h : ((m >>= f) c).1 = .ok b) : ∃ a, (m c).1 = .ok a ∧ (f a (m c).2).1 = .ok b := by
  change (StateT.run (ExceptT.bindCont f (m c).1) (m c).2).1 = .ok b at h
  cases hm : (m c).1 with
  | ok a =>
    rw [hm] at h
    exact ⟨a, rfl, h⟩
  | error e =>
    rw [hm] at h
    cases h

theorem length_collect
    {result : List Candidate} {failures : Error}
    (hresult : result.length ≤ s.d.maxCandidates)
    (h : (s.collect after ways result failures c).1 = .ok candidates) :
    candidates.length ≤ s.d.maxCandidates := by
  induction ways generalizing result failures c with
  | nil =>
    unfold collect at h
    split at h
    · cases h
    · cases h
      exact hresult
  | cons way ways ih =>
    cases way with
    | none => cases h
    | some way =>
      obtain ⟨outcome, -, h⟩ := bind_eq_ok h
      cases outcome with
      | error e =>
        dsimp only at h
        split at h
        · cases h
        · obtain ⟨_, -, h⟩ := bind_eq_ok h
          exact ih hresult h
      | ok found =>
        dsimp only at h
        split at h
        · cases h
        next hle =>
          obtain ⟨_, -, h⟩ := bind_eq_ok h
          exact ih (Nat.le_of_not_lt hle) h

theorem keeps_discover : Keeps s.d s.discover := by
  refine keeps_check (keeps_bind (keeps_lookup _ _ _) fun root => ?_)
  refine keeps_collect keeps_checkContext (fun way hway => ?_) _ _
  obtain ⟨transport, -, hway⟩ := List.mem_map.1 hway
  cases hway
  exact keeps_ite (keeps_resolveSRV _ _ _ _ _) (keeps_walk _ _ _ _ _ _ _)

theorem length_discover
    (h : (s.discover c).1 = .ok candidates) : candidates.length ≤ s.d.maxCandidates := by
  unfold discover at h
  split at h
  · cases h
  · obtain ⟨root, -, h⟩ := bind_eq_ok h
    exact length_collect (Nat.zero_le _) h

end Search

/-- Whatever the resolver answers, the search ends after `maxQueries` lookups at most, with an error
or with `maxCandidates` candidates at most. -/
theorem discover_bounded (d : Discoverer) (request : Request) :
    (d.discover request {}).2.asked.length ≤ d.maxQueries ∧
      ∀ candidates, (d.discover request {}).1 = .ok candidates →
        candidates.length ≤ d.maxCandidates := by
  constructor
  · have hkeeps : Search.Keeps d (d.discover request) :=
      Search.keeps_bind Search.keeps_checkContext fun _ =>
        Search.keeps_bind (Search.keeps_ofExcept _) fun realm =>
          Search.keeps_discover (s := ⟨d, _, realm⟩)
    obtain ⟨hcount, hle⟩ := hkeeps {} ⟨rfl, Nat.zero_le _⟩
    omega
  · intro candidates h
    obtain ⟨_, -, h⟩ := Search.bind_eq_ok h
    obtain ⟨realm, -, h⟩ := Search.bind_eq_ok h
    exact Search.length_discover (s := ⟨d, _, realm⟩) h

end Diameter.Dns
