import Mathlib.Data.List.Nodup
import Mathlib.Logic.Function.Basic

/-!
# Pools of equal blocks

A pool hands out its free blocks in the order of a list, and a block that is released goes
to its front.  A client sees only what the blocks hold that are handed out.
-/

namespace SeqDetect.Memory

structure Pool (Block Content : Type) where
  /-- The free blocks, the next one to be handed out first. -/
  free : List Block
  content : Block → Content

namespace Pool

variable {Block Content : Type} [DecidableEq Block]

def malloc (pool : Pool Block Content) : Option (Block × Pool Block Content) :=
  match pool.free with
  | [] => none
  | block :: free => some (block, { pool with free := free })

def store (pool : Pool Block Content) (block : Block) (content : Content) :
    Pool Block Content :=
  { pool with content := Function.update pool.content block content }

def release (pool : Pool Block Content) (block : Block) : Pool Block Content :=
  { pool with free := block :: pool.free }

/-- What a block holds, as long as it is handed out. -/
def held (pool : Pool Block Content) (block : Block) : Option Content :=
  if block ∈ pool.free then none else some (pool.content block)

omit [DecidableEq Block] in
theorem malloc_eq_none {pool : Pool Block Content} (empty : pool.free = []) :
    pool.malloc = none := by
  simp [malloc, empty]

omit [DecidableEq Block] in
theorem malloc_eq_some {pool : Pool Block Content} {block : Block} {free : List Block}
    (next : pool.free = block :: free) :
    pool.malloc = some (block, { pool with free := free }) := by
  simp [malloc, next]

@[simp]
theorem store_store (pool : Pool Block Content) (block : Block) (first second : Content) :
    (pool.store block first).store block second = pool.store block second := by
  simp [store]

@[simp]
theorem store_content_self (pool : Pool Block Content) (block : Block) (content : Content) :
    (pool.store block content).content block = content := by
  simp [store]

theorem held_eq_none {pool : Pool Block Content} {block : Block} (free : block ∈ pool.free) :
    pool.held block = none :=
  if_pos free

theorem held_eq_some {pool : Pool Block Content} {block : Block} (taken : block ∉ pool.free) :
    pool.held block = some (pool.content block) :=
  if_neg taken

/-- A block that was next and is filled is the one block with a new content. -/
theorem held_malloc {pool : Pool Block Content} {block : Block} {free : List Block}
    (next : pool.free = block :: free) (nodup : pool.free.Nodup) (content : Content) :
    (store { pool with free := free } block content).held =
      Function.update pool.held block (some content) := by
  rw [next] at nodup
  funext other
  by_cases same : other = block
  · subst same
    simp [held, store, (List.nodup_cons.mp nodup).1]
  · simp [held, store, next, same]

theorem held_store {pool : Pool Block Content} {block : Block} (taken : block ∉ pool.free)
    (content : Content) :
    (pool.store block content).held = Function.update pool.held block (some content) := by
  funext other
  by_cases same : other = block
  · subst same
    simp [held, store, taken]
  · simp [held, store, same]

end Pool

end SeqDetect.Memory
