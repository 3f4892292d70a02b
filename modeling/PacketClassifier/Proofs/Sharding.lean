import Mathlib.Data.List.DropRight
import PacketClassifier.Proofs.Tally

/-!
# Counting on several threads

A tally is asked to count packets, to take over counters and to start again from zero, each
time on some thread.  Its base and its shards wrap around each on its own.  Even so the tally
reads as a single pair of counters does after the same requests: it has counted what came
since the last reset, modulo the size of a word, on whichever threads.  Each part of it holds
what a single pair does that has seen the requests that reach this part.
-/

namespace PacketClassifier

/-! ## Requests -/

namespace Tally

/-- What a tally is asked for. -/
inductive Request where
  /-- Count one packet of so many bytes. -/
  | hit (bytes : UInt64)
  /-- Take over counters from elsewhere. -/
  | fold (counters : Counters)
  /-- Start again from zero. -/
  | reset
deriving DecidableEq

/-- What a request on a thread leads to. -/
def after (tally : Tally) (thread : ThreadId) : Request → Tally
  | .hit bytes => tally.hit thread bytes
  | .fold counters => tally.fold counters
  | .reset => tally.reset

/-- What requests on their threads lead to, one after the other. -/
def run (tally : Tally) (requests : List (ThreadId × Request)) : Tally :=
  requests.foldl (fun tally (thread, request) => tally.after thread request) tally

theorem run_concat (tally : Tally) (requests : List (ThreadId × Request))
    (last : ThreadId × Request) :
    tally.run (requests ++ [last]) = (tally.run requests).after last.1 last.2 :=
  List.foldl_concat ..

namespace Request

/-- What the request adds. -/
def gain : Request → Counters
  | .hit bytes => ⟨1, bytes⟩
  | .fold counters => counters
  | .reset => 0

/-- How many packets the request is about. -/
def packets : Request → Nat
  | .hit _ => 1
  | .fold counters => counters.packets.toNat
  | .reset => 0

/-- How many bytes the request is about. -/
def bytes : Request → Nat
  | .hit bytes => bytes.toNat
  | .fold counters => counters.bytes.toNat
  | .reset => 0

@[simp]
theorem packets_gain (request : Request) : request.gain.packets.toNat = request.packets := by
  cases request <;> rfl

@[simp]
theorem bytes_gain (request : Request) : request.gain.bytes.toNat = request.bytes := by
  cases request <;> rfl

end Request

/-- The requests after the last reset. -/
def sinceReset (requests : List Request) : List Request :=
  requests.rtakeWhile (· ≠ .reset)

theorem sinceReset_concat (requests : List Request) (last : Request) :
    sinceReset (requests ++ [last]) =
      if last = .reset then [] else sinceReset requests ++ [last] := by
  rw [sinceReset, List.rtakeWhile_concat]
  simp [sinceReset]

end Tally

/-! ## A single pair of counters -/

namespace Counters

open Tally (Request sinceReset sinceReset_concat)

/-- What a request leads to on a single pair of counters. -/
def after (pair : Counters) : Request → Counters
  | .hit bytes => ⟨pair.packets + 1, pair.bytes + bytes⟩
  | .fold counters => ⟨pair.packets + counters.packets, pair.bytes + counters.bytes⟩
  | .reset => ⟨0, 0⟩

/-- What requests lead to on a single pair of counters, one after the other. -/
def run (pair : Counters) (requests : List Request) : Counters :=
  requests.foldl after pair

theorem after_of_ne_reset (pair : Counters) {request : Request} (adds : request ≠ .reset) :
    pair.after request = pair + request.gain := by
  cases request with
  | hit bytes => rfl
  | fold counters => rfl
  | reset => exact absurd rfl adds

/-- A pair that starts from zero holds the sum of what came since the last reset. -/
theorem run_zero (requests : List Request) :
    run 0 requests = ((sinceReset requests).map Request.gain).sum := by
  -- From the end, as a reset takes away whatever came before it.
  induction requests using List.reverseRecOn with
  | nil => rfl
  | append_singleton requests last ih =>
      rw [run, List.foldl_concat, ← run, ih, sinceReset_concat]
      split
      · rename_i ends
        rw [ends]
        rfl
      · rename_i adds
        rw [after_of_ne_reset _ adds, List.map_append, List.sum_append, List.map_singleton,
          List.sum_singleton]

theorem packets_run_zero (requests : List Request) :
    (run 0 requests).packets.toNat =
      ((sinceReset requests).map Request.packets).sum % 2 ^ 64 := by
  rw [run_zero, packets_sum, toNat_sum, List.map_map, List.map_map]
  simp only [Function.comp_def, Request.packets_gain]

theorem bytes_run_zero (requests : List Request) :
    (run 0 requests).bytes.toNat =
      ((sinceReset requests).map Request.bytes).sum % 2 ^ 64 := by
  rw [run_zero, bytes_sum, toNat_sum, List.map_map, List.map_map]
  simp only [Function.comp_def, Request.bytes_gain]

end Counters

namespace Tally

variable {tally : Tally}

/-! ## Readings -/

/-- A request does to what is read what it does to a single pair, on whichever thread. -/
theorem counters_after (tally : Tally) (thread : ThreadId) (request : Request) :
    (tally.after thread request).counters = tally.counters.after request := by
  cases request with
  | hit bytes => exact counters_hit tally thread bytes
  | fold counters => exact counters_fold tally counters
  | reset => exact counters_reset tally

theorem counters_run (tally : Tally) (requests : List (ThreadId × Request)) :
    (tally.run requests).counters = tally.counters.run (requests.map Prod.snd) := by
  induction requests generalizing tally with
  | nil => rfl
  | cons first rest ih =>
      have later := ih (tally.after first.1 first.2)
      rw [counters_after] at later
      exact later

theorem counters_run_new (requests : List (ThreadId × Request)) :
    (run {} requests).counters = Counters.run 0 (requests.map Prod.snd) :=
  counters_run {} requests

/-- The shards may be gone through in any order. -/
theorem counters_perm {shards : List (ThreadId × Counters)} (same : shards.Perm tally.shards) :
    ({ tally with shards } : Tally).counters = tally.counters := by
  rw [counters_eq, counters_eq, (same.map Prod.snd).sum_eq]

/-- A tally reads as a single pair of counters does that has seen the same requests. -/
structure ReadsAs (tally : Tally) (requests : List Request) : Prop where
  single : tally.counters = Counters.run 0 requests
  packets : tally.counters.packets.toNat =
    ((sinceReset requests).map Request.packets).sum % 2 ^ 64
  bytes : tally.counters.bytes.toNat =
    ((sinceReset requests).map Request.bytes).sum % 2 ^ 64
  /-- The order in which the shards are gone through does not count. -/
  anyOrder : ∀ shards, shards.Perm tally.shards →
    ({ tally with shards } : Tally).counters = tally.counters

/--
Whatever a new tally is asked for, and on whichever threads, it reads as a single pair of
counters does: it has counted the packets and bytes since the last reset, modulo the size of
a word.  The same requests on other threads give the same.
-/
theorem run_readsAs (requests : List (ThreadId × Request)) :
    (run {} requests).ReadsAs (requests.map Prod.snd) ∧
      ∀ others : List (ThreadId × Request), others.map Prod.snd = requests.map Prod.snd →
        (run {} others).counters = (run {} requests).counters := by
  have single := counters_run_new requests
  refine ⟨⟨single, ?_, ?_, fun _ => counters_perm⟩, fun others same => ?_⟩
  · rw [single, Counters.packets_run_zero]
  · rw [single, Counters.bytes_run_zero]
  · rw [single, counters_run_new others, same]

/--
Packets on three threads with a reset in between.  The bytes of a shard overflow, and so do
the packets of the base and the shards together.
-/
def relayed : List (ThreadId × Request) :=
  [(0, .hit 100), (1, .fold ⟨5, 7⟩), (1, .reset), (1, .hit 18446744073709551615), (2, .hit 2),
    (0, .fold ⟨18446744073709551615, 3⟩), (2, .hit 5), (1, .hit 4)]

/-- The shards of `relayed` read backwards, or its requests on a single thread, give the same. -/
theorem relayed_readsAs :
    (run {} relayed).counters = ⟨3, 13⟩ ∧
      (run {} relayed).ReadsAs (relayed.map Prod.snd) ∧
      ({ run {} relayed with shards := (run {} relayed).shards.reverse } : Tally).counters =
        (run {} relayed).counters ∧
      (relayed.map fun (_, request) => (0, request)).map Prod.snd = relayed.map Prod.snd ∧
      (run {} (relayed.map fun (_, request) => (0, request))).counters =
        (run {} relayed).counters :=
  ⟨by decide, (run_readsAs relayed).1,
    (run_readsAs relayed).1.anyOrder _ (List.reverse_perm _), by decide,
    (run_readsAs relayed).2 _ (by decide)⟩

/-! ## What the parts hold -/

/-- The threads that have a shard. -/
def owners (tally : Tally) : List ThreadId :=
  tally.shards.map Prod.fst

/-- What the shard of a thread holds; nothing, if the thread has none. -/
def shard (tally : Tally) (thread : ThreadId) : Counters :=
  (tally.shards.lookup thread).getD 0

/-- The requests that reach the base: all but packets. -/
def onBase (requests : List (ThreadId × Request)) : List Request :=
  (requests.map Prod.snd).filter fun request =>
    match request with
    | .hit _ => false
    | .fold _ | .reset => true

/-- The requests that reach the shard of a thread: its own packets, and resets on any thread. -/
def onShard (thread : ThreadId) (requests : List (ThreadId × Request)) : List Request :=
  (requests.filter fun (caller, request) =>
    match request with
    | .hit _ => caller = thread
    | .fold _ => false
    | .reset => true).map Prod.snd

theorem lookup_addToShard (other thread : ThreadId) (counters : Counters)
    (shards : List (ThreadId × Counters)) :
    (addToShard thread counters shards).lookup other =
      if other = thread then
        some ((shards.lookup thread).getD 0 + counters)
      else
        shards.lookup other := by
  induction shards with
  | nil => grind [addToShard]
  | cons first rest ih => grind [addToShard]

/-- A packet reaches the shard of its thread only. -/
theorem shard_hit (tally : Tally) (thread other : ThreadId) (bytes : UInt64) :
    (tally.hit thread bytes).shard other =
      if thread = other then tally.shard other + ⟨1, bytes⟩ else tally.shard other := by
  rw [shard, hit, lookup_addToShard]
  by_cases own : other = thread
  · subst own
    simp [shard]
  · simp [own, Ne.symm own, shard]

/-- A reset reaches every shard. -/
theorem shard_reset (tally : Tally) (thread : ThreadId) : tally.reset.shard thread = 0 := by
  rw [shard, reset]
  induction tally.shards with
  | nil => rfl
  | cons first rest ih =>
      rw [List.map_cons, List.lookup_cons]
      split
      · rfl
      · exact ih

/-- The base holds what a single pair does that sees the requests that reach the base. -/
theorem base_run (tally : Tally) (requests : List (ThreadId × Request)) :
    (tally.run requests).base = tally.base.run (onBase requests) := by
  induction requests generalizing tally with
  | nil => rfl
  | cons first rest ih =>
      obtain ⟨thread, request⟩ := first
      have later := ih (tally.after thread request)
      cases request with
      | hit bytes => exact later
      | fold counters => exact later
      | reset => exact later

/-- A shard holds what a single pair does that sees the requests that reach the shard. -/
theorem shard_run (tally : Tally) (thread : ThreadId) (requests : List (ThreadId × Request)) :
    (tally.run requests).shard thread = (tally.shard thread).run (onShard thread requests) := by
  induction requests generalizing tally with
  | nil => rfl
  | cons first rest ih =>
      obtain ⟨caller, request⟩ := first
      have later := ih (tally.after caller request)
      cases request with
      | hit bytes =>
          rw [after, shard_hit] at later
          by_cases own : caller = thread
          · simp only [onShard, List.filter_cons, own, decide_true, if_true] at later ⊢
            exact later
          · simp only [onShard, List.filter_cons, own, decide_false, if_false] at later ⊢
            exact later
      | fold counters => exact later
      | reset =>
          rw [after, shard_reset] at later
          exact later

/-- A thread gets a shard with its first packet, and only then. -/
theorem owners_hit (tally : Tally) (thread : ThreadId) (bytes : UInt64) :
    (tally.hit thread bytes).owners =
      if thread ∈ tally.owners then tally.owners else tally.owners ++ [thread] := by
  rw [owners, hit, owners]
  induction tally.shards with
  | nil => rfl
  | cons first rest ih =>
      obtain ⟨owner, held⟩ := first
      rw [addToShard]
      by_cases own : owner = thread
      · simp [own]
      · rw [if_neg own, List.map_cons, ih]
        simp only [List.map_cons, List.mem_cons, Ne.symm own, false_or]
        split <;> rfl

/-- A reset keeps the shards, for the packets to come. -/
@[simp]
theorem owners_reset (tally : Tally) : tally.reset.owners = tally.owners := by
  rw [owners, reset, List.map_map, owners]
  rfl

/-- No thread ever has two shards. -/
theorem nodup_owners_run (tally : Tally) (apart : tally.owners.Nodup)
    (requests : List (ThreadId × Request)) : (tally.run requests).owners.Nodup := by
  induction requests generalizing tally with
  | nil => exact apart
  | cons first rest ih =>
      obtain ⟨thread, request⟩ := first
      refine ih (tally.after thread request) ?_
      cases request with
      | hit bytes =>
          rw [after, owners_hit]
          split
          · exact apart
          · rename_i fresh
            exact List.nodup_append_comm.mp (List.nodup_cons.mpr ⟨fresh, apart⟩)
      | fold counters => exact apart
      | reset =>
          rw [after, owners_reset]
          exact apart

/-- Where no thread has two shards, the shards are those of their owners. -/
theorem shards_eq {tally : Tally} (apart : tally.owners.Nodup) :
    tally.shards.map Prod.snd = tally.owners.map tally.shard := by
  rw [owners, List.map_map]
  refine List.map_congr_left fun (owner, held) member => ?_
  -- Looked up is the first shard of an owner, which is the only one.
  obtain ⟨front, back, split⟩ := List.append_of_mem member
  have first : owner ∉ front.map Prod.fst := by
    rw [owners, split, List.map_append, List.map_cons] at apart
    exact fun earlier =>
      (List.nodup_cons.mp (List.nodup_middle.mp apart)).1 (List.mem_append_left _ earlier)
  have found : tally.shards.lookup owner = some held := by
    refine List.lookup_eq_some_iff.mpr ⟨front, back, split, fun other earlier => ?_⟩
    simpa using fun same => first (List.mem_map.mpr ⟨other, earlier, same.symm⟩)
  show held = (tally.shards.lookup owner).getD 0
  rw [found, Option.getD_some]

/--
What a new tally reads as after its requests is made up of what its parts have seen: the base
all but packets, and the shard of each thread the packets of the thread, and the resets.
-/
theorem counters_run_parts (requests : List (ThreadId × Request)) :
    (run {} requests).counters =
      Counters.run 0 (onBase requests) +
        ((run {} requests).owners.map fun thread =>
          Counters.run 0 (onShard thread requests)).sum := by
  have apart := nodup_owners_run {} List.nodup_nil requests
  have shards : (run {} requests).owners.map (run {} requests).shard =
      (run {} requests).owners.map fun thread => Counters.run 0 (onShard thread requests) :=
    List.map_congr_left fun thread _ => shard_run {} thread requests
  rw [counters_eq, shards_eq apart, shards, base_run]
  rfl

end Tally

end PacketClassifier
