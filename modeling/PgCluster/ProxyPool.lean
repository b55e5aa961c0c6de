import PgCluster.RaftTopology

/-!
# The proxy's connection pool

`proxy/pool.rs`: buckets of idle backend connections, found by the text form
of their key. The pool is written for any type of connection, because a
connection has one owner at a time: it is in the idle list of one bucket, or
a session holds it. Each operation here is what the source does under the
lock of a bucket's idle list.

Whether a connection is alive is up to the network, so the operations take it
as an argument: `broken` is how many connections on top of the idle list turn
out to be dead.
-/

namespace PgCluster

open List

/-! ## Keys -/

/-- What a connection is logged in for: the names in the startup message, and
the backend. -/
structure PoolIdentity where
  database : String
  user : String
  nodeId : String
  addr : String
deriving DecidableEq

structure PoolKey where
  database : String
  user : String
  backend : String
deriving DecidableEq

def PoolKey.new (database user nodeId addr : String) : PoolKey :=
  ⟨database, user, nodeId ++ ":" ++ addr⟩

def PoolKey.stringKey (key : PoolKey) : String :=
  key.database ++ "|" ++ key.user ++ "|" ++ key.backend

def PoolIdentity.stringKey (x : PoolIdentity) : String :=
  (PoolKey.new x.database x.user x.nodeId x.addr).stringKey

/-! ## Buckets -/

/-- The idle connections, the last released one at the end, and how many
connections are alive. A counter that was taken below zero has wrapped. -/
structure PoolBucket (κ : Type) where
  idle : List κ
  total : Int
  max : Nat
deriving DecidableEq

abbrev ConnectionPools (κ : Type) := HashMap String (PoolBucket κ)

namespace ConnectionPools

variable {κ : Type} {pools : ConnectionPools κ} {max : Nat} {key : String}

/-- `entry(key).or_insert_with(..)`. -/
def bucket (pools : ConnectionPools κ) (max : Nat) (key : String) : PoolBucket κ :=
  (pools.lookup key).getD ⟨[], 0, max⟩

/-- The fast path of `acquire`: pop connections until one is alive. -/
def takeIdle (pools : ConnectionPools κ) (max : Nat) (key : String) (broken : Nat) :
    Option κ × ConnectionPools κ :=
  let b := pools.bucket max key
  match b.idle.reverse.drop broken with
  | [] => (none, pools.insert key { b with idle := [], total := b.total - b.idle.length })
  | conn :: rest =>
    (some conn, pools.insert key { b with idle := rest.reverse, total := b.total - broken })

/-- Reserve a slot before the connect. -/
def increment (pools : ConnectionPools κ) (max : Nat) (key : String) : ConnectionPools κ :=
  let b := pools.bucket max key
  pools.insert key { b with total := b.total + 1 }

def decrement (pools : ConnectionPools κ) (max : Nat) (key : String) : ConnectionPools κ :=
  let b := pools.bucket max key
  pools.insert key { b with total := b.total - 1 }

def release (pools : ConnectionPools κ) (key : String) (conn : κ) (alive : Bool) :
    ConnectionPools κ :=
  match pools.lookup key with
  | none => pools
  | some b =>
    if alive then pools.insert key { b with idle := b.idle ++ [conn] }
    else pools.insert key { b with total := b.total - 1 }

/-- `evict_idle` on one connection of one bucket. -/
def evict (pools : ConnectionPools κ) (key : String) (i : Nat) : ConnectionPools κ :=
  match pools.lookup key with
  | none => pools
  | some b =>
    if i < b.idle.length then
      pools.insert key { b with idle := b.idle.eraseIdx i, total := b.total - 1 }
    else pools

/-- `inject` under the lock: a full list loses its oldest connection first, and
`remove(0)` panics on an empty one. -/
def donate (pools : ConnectionPools κ) (max : Nat) (key : String) (conn : κ) :
    Option (ConnectionPools κ) :=
  let b := pools.bucket max key
  if b.max ≤ b.idle.length then
    match b.idle with
    | [] => none
    | _ :: rest => some (pools.insert key { b with idle := rest ++ [conn], total := b.total - 1 })
  else some (pools.insert key { b with idle := b.idle ++ [conn] })

/-- `drain_backend` under the lock, on one bucket. -/
def clear (pools : ConnectionPools κ) (key : String) : ConnectionPools κ :=
  match pools.lookup key with
  | none => pools
  | some b => pools.insert key { b with idle := [] }

variable {key' : String}

theorem bucket_of_lookup {b : PoolBucket κ} (h : pools.lookup key = some b) :
    pools.bucket max key = b := by
  simp [bucket, h]

theorem bucket_insert (b : PoolBucket κ) : bucket (pools.insert key b) max key = b := by
  simp [bucket, Finmap.lookup_insert]

theorem bucket_insert_of_ne (b : PoolBucket κ) (h : key' ≠ key) :
    bucket (pools.insert key b) max key' = pools.bucket max key' := by
  simp [bucket, Finmap.lookup_insert_of_ne _ h]

end ConnectionPools

end PgCluster
