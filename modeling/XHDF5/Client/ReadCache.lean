/-
# The read cache

`cache_set`, `cache_get` and `cache_delete` keep values under keys in a doubly linked list, the item
used last at the head. A new item makes the cache evict from the tail until its values fit the
capacity, an `int`; the update of an item does not. Every call holds the cache's lock from its start
to its end.

`malloc` succeeds. A walk along the list is undefined when it meets more nodes than there are items,
for then it never ends; the same holds for the loop of the evictions.
-/

import XHDF5.Client.Objects
import XHDF5.Math.CInt
import XHDF5.Math.LinkedList
import XHDF5.Math.Lru

namespace XHDF5.Client

open XHDF5.Math

/-! ## The code -/

/-- The `key`, `data` and `size` of a `CacheItem`. A pointer that is zero is NULL. -/
structure CacheEntry where
  key : Text
  data : Addr
  size : Nat
deriving DecidableEq

/-- A `Cache`, with the number of its items in memory and the values that were freed. -/
structure Cache where
  list : LinkedList CacheEntry
  capacity : Int
  size : Int
  totalSize : Nat
  items : Nat
  freed : List Addr

/-- `MAX_KEY_LEN`. -/
def maxKeyLen : Nat := 256

/-- `cache_init`: the capacity is converted to `int`. -/
def cacheInit (capacity : Nat) : Cache where
  list := .empty
  capacity := toInt capacity
  size := 0
  totalSize := 0
  items := 0
  freed := []

/-- The loop that looks for a key from a pointer on. -/
def findItem (mem : Nat → Option (Node CacheEntry)) (key : Text) :
    Nat → Option Nat → Option (Option Nat)
  | _, none => some none
  | 0, some _ => none
  | rounds + 1, some item =>
      (mem item).bind fun node =>
        if node.value.key = key then some (some item) else findItem mem key rounds node.next

namespace Cache

/-- The item of a key. -/
def find (c : Cache) (key : Text) : Option (Option Nat) :=
  findItem c.list.mem key c.items c.list.head

/-- `free` of a value; a value must not be freed twice. -/
def freeData (c : Cache) (data : Addr) : Option Cache :=
  if data = 0 then some c
  else if data ∈ c.freed then none
  else some { c with freed := data :: c.freed }

/-- `free` of an item. -/
def freeItem (c : Cache) (item : Nat) : Cache :=
  { c with list := c.list.free item, items := c.items - 1 }

end Cache

/-- `move_to_head`. -/
def moveToHead (l : LinkedList CacheEntry) (item : Nat) : Option (LinkedList CacheEntry) :=
  if l.head = some item then some l
  else
    (l.detach item).bind fun l =>
      (l.mem item).bind fun node =>
        let l := if l.tail = some item then { l with tail := node.prev } else l
        l.pushFront item

/-- `cache_get`: the cache and the value. -/
def cacheGet (c : Cache) (key : Text) : Option (Cache × Addr) :=
  (c.find key).bind fun
    | none => some (c, 0)
    | some item =>
        (moveToHead c.list item).bind fun l =>
          (l.mem item).map fun node => ({ c with list := l }, node.value.data)

/-- `cache_evict`: the cache and the key that went, if any. -/
def cacheEvict (c : Cache) : Option (Cache × List Text) :=
  match c.list.tail with
  | none => some (c, [])
  | some item =>
      (c.list.mem item).bind fun node =>
        (c.list.setNext node.prev none).bind fun l =>
          let l := { l with tail := node.prev }
          let l := if l.head = some item then { l with head := none } else l
          let c := { c with list := l, totalSize := wrap64 (c.totalSize + 2 ^ 64 - node.value.size) }
          (c.freeData node.value.data).bind fun c =>
            (cint (c.size - 1)).map fun size =>
              ({ c.freeItem item with size := size }, [node.value.key])

/-- The loop of the evictions: the cache and the keys that went, the last one first. -/
def evictLoop : Nat → Cache → Option (Cache × List Text)
  | 0, c => if toSize c.capacity < c.totalSize then none else some (c, [])
  | rounds + 1, c =>
      if toSize c.capacity < c.totalSize then
        (cacheEvict c).bind fun first =>
          (evictLoop rounds first.1).map fun later => (later.1, later.2 ++ first.2)
      else some (c, [])

/-- `cache_set` of a new key with the item that `malloc` returns. -/
def cacheInsert (c : Cache) (entry : CacheEntry) (item : Nat) : Option (Cache × List Text) :=
  ((c.list.malloc item entry).pushFront item).bind fun l =>
    (cint (c.size + 1)).bind fun size =>
      evictLoop (c.items + 1)
        { c with
          list := l
          size := size
          totalSize := wrap64 (c.totalSize + entry.size)
          items := c.items + 1 }

/-- `cache_set` of a key that is there. -/
def cacheUpdate (c : Cache) (entry : CacheEntry) (item : Nat) : Option Cache :=
  (c.list.mem item).bind fun node =>
    let totalSize := wrap64 (wrap64 (c.totalSize + 2 ^ 64 - node.value.size) + entry.size)
    (c.list.modify (some item) fun node => { node with value := { entry with key := node.value.key } }).bind
      fun l => (moveToHead l item).map fun l => { c with list := l, totalSize := totalSize }

/-- `cache_set`: the cache and the evicted keys. -/
def cacheSet (c : Cache) (key : Text) (data : Addr) (size : Nat) (item : Nat) :
    Option (Cache × List Text) :=
  (c.find key).bind fun
    | none => cacheInsert c ⟨key, data, size⟩ item
    | some found => (cacheUpdate c ⟨key, data, size⟩ found).map fun c => (c, [])

/-- `cache_delete`. -/
def cacheDelete (c : Cache) (key : Text) : Option Cache :=
  (c.find key).bind fun
    | none => some c
    | some item =>
        (c.list.detach item).bind fun l =>
          (l.mem item).bind fun node =>
            let l := if l.head = some item then { l with head := node.next } else l
            let l := if l.tail = some item then { l with tail := node.prev } else l
            let c :=
              { c with list := l, totalSize := wrap64 (c.totalSize + 2 ^ 64 - node.value.size) }
            (c.freeData node.value.data).bind fun c =>
              (cint (c.size - 1)).map fun size => { c.freeItem item with size := size }

/-! ## Runs -/

/-- A call with its arguments, and the address that `malloc` would return. -/
inductive CacheCall
  | set (key : Text) (data : Addr) (size : Nat) (item : Nat)
  | get (key : Text)
  | delete (key : Text)

/-- The cache with what happened to its keys, the newest first. -/
structure TracedCache where
  cache : Cache
  history : List (MapEvent Text Addr)

/-- A call on the cache. -/
def TracedCache.step (t : TracedCache) : CacheCall → Option TracedCache
  | .set key data size item =>
      (cacheSet t.cache key data size item).map fun result =>
        ⟨result.1, result.2.map .evicted ++ .set key data :: t.history⟩
  | .get key =>
      (cacheGet t.cache key).map fun result => ⟨result.1, .got key result.2 :: t.history⟩
  | .delete key => (cacheDelete t.cache key).map fun c => ⟨c, .deleted key :: t.history⟩

/-- A new cache. -/
def TracedCache.init (capacity : Nat) : TracedCache := ⟨cacheInit capacity, []⟩

/-- The key fits its array, the size is a `size_t`, `malloc` returns memory that is not in use, and
no value is passed in twice. -/
def TracedCache.Possible (t : TracedCache) : CacheCall → Prop
  | .set key data size item =>
      key.length < maxKeyLen ∧ size < 2 ^ 64 ∧ t.cache.list.mem item = none ∧
        (data ≠ 0 → ∀ k, .set k data ∉ t.history)
  | .get _ => True
  | .delete _ => True

end XHDF5.Client
