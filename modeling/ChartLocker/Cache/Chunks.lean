import ChartLocker.Cache.Aggregates
import ChartLocker.Cache.Eviction

/-!
# Chunked deletion

`delete_unpinned_chunks` deletes at most `DELETE_CHUNK` rows under the lock,
releases it, and goes on until a chunk was not full.  Between two chunks any
other method may run.  A chunk removes rows of its subquery only, and a chunk
which is not full removes all of them.
-/

namespace ChartLocker.Cache

open Library TileCache

/-! ## The loop -/

/-- The two callers of `delete_unpinned_chunks`. -/
inductive ChunkCall where
  | sweepAgedUnpinned (ttlSecs now : Int)
  | clearUnpinned
deriving DecidableEq, Repr

namespace ChunkCall

/-- The sweep does nothing without a positive time to live. -/
def begins : ChunkCall → Bool
  | .sweepAgedUnpinned ttlSecs _ => !decide (ttlSecs ≤ 0)
  | .clearUnpinned => true

/-- The filter of the subquery. -/
def select : ChunkCall → TileRow → Bool
  | .sweepAgedUnpinned ttlSecs now => fun row =>
      !row.pinned && decide (row.tile.lastAccess < now - ttlSecs)
  | .clearUnpinned => fun row => !row.pinned

/-- The order of the subquery. -/
def order : ChunkCall → TileRow → TileRow → Bool
  | .sweepAgedUnpinned _ _ => olderOrSame
  | .clearUnpinned => fun left right => decide (left.rowid ≤ right.rowid)

/-- The rows which a call is about. -/
def covers (call : ChunkCall) (row : TileRow) : Bool :=
  call.begins && call.select row

def rowids (call : ChunkCall) (tables : Tables) : List Nat :=
  chunkRowids tables call.select call.order

/-- What the database may answer to the subquery: a prefix of the filtered rows
in some order which `ORDER BY` allows. -/
def Answers (call : ChunkCall) (tables : Tables) (answer : List TileRow) :
    Prop :=
  ∃ sorted : List TileRow, sorted.Perm (tables.tiles.rows.filter call.select) ∧
    sorted.Pairwise (fun left right => call.order left right = true) ∧
    answer = sorted.take deleteChunk

/-- The rows which the next chunk deletes. -/
def chunkRows (call : ChunkCall) (tables : Tables) : List TileRow :=
  tables.tiles.rows.filter fun row => decide (row.rowid ∈ call.rowids tables)

end ChunkCall

/-- A call of `delete_unpinned_chunks` on its way, with every row that it has
deleted as the row was at that moment. -/
structure ChunkLoop where
  cache : TileCache
  freedBytes : Int
  freedRows : Nat
  finished : Bool
  deleted : List TileRow

namespace ChunkLoop

inductive Label where
  | chunk
  | other (op : CacheOp)

def Label.isChunk : Label → Bool
  | .chunk => true
  | .other _ => false

/-- One iteration of the loop. -/
def chunk (call : ChunkCall) (loop : ChunkLoop) : ChunkLoop :=
  let done := loop.cache.deleteUnpinnedChunk (call.rowids loop.cache.tables)
  { cache := done.2.2
    freedBytes := loop.freedBytes + done.1
    freedRows := loop.freedRows + done.2.1
    finished := decide (done.2.1 < deleteChunk)
    deleted := loop.deleted ++ call.chunkRows loop.cache.tables }

def step (call : ChunkCall) (loop : ChunkLoop) : Label → Option ChunkLoop
  | .chunk => if loop.finished then none else some (loop.chunk call)
  | .other op => some { loop with cache := op.apply loop.cache }

end ChunkLoop

/-- A call over any cache, between any calls of other methods. -/
def chunkMachine (call : ChunkCall) : Machine ChunkLoop ChunkLoop.Label where
  initial loop := ∃ cache, loop = ⟨cache, 0, 0, !call.begins, []⟩
  step := ChunkLoop.step call

/-! ## One chunk -/

section Chunk

variable {call : ChunkCall} {tables : Tables} {row : TileRow}

theorem select_of_mem_chunkRows (member : row ∈ call.chunkRows tables) :
    call.select row = true := by
  obtain ⟨stored, chosen⟩ := List.mem_filter.mp member
  exact select_of_mem_chunkRowids stored (of_decide_eq_true chosen)

theorem order_trans {left middle right : TileRow}
    (first : call.order left middle = true)
    (second : call.order middle right = true) :
    call.order left right = true := by
  cases call with
  | sweepAgedUnpinned ttlSecs now =>
      exact olderOrSame_iff.mpr
        ((olderOrSame_iff.mp first).trans (olderOrSame_iff.mp second))
  | clearUnpinned =>
      exact decide_eq_true
        ((of_decide_eq_true first).trans (of_decide_eq_true second))

theorem order_total (left right : TileRow) :
    (call.order left right || call.order right left) = true := by
  rw [Bool.or_eq_true]
  cases call with
  | sweepAgedUnpinned ttlSecs now =>
      exact (le_total (Tables.accessRank left) (Tables.accessRank right)).imp
        olderOrSame_iff.mpr olderOrSame_iff.mpr
  | clearUnpinned =>
      exact (le_total left.rowid right.rowid).imp decide_eq_true
        decide_eq_true

/-- No two rows compare equal: the row id breaks the ties. -/
theorem rowid_eq_of_order {left right : TileRow}
    (first : call.order left right = true)
    (second : call.order right left = true) : left.rowid = right.rowid := by
  cases call with
  | sweepAgedUnpinned ttlSecs now =>
      simp only [ChunkCall.order, TileCache.olderOrSame, Bool.or_eq_true,
        Bool.and_eq_true, decide_eq_true_eq] at first second
      omega
  | clearUnpinned =>
      exact (of_decide_eq_true first).antisymm (of_decide_eq_true second)

/-- Every answer to the subquery has the rows of the chunk, so that the sum and
the deletion are about the same ones. -/
theorem perm_chunkRows_of_answers {answer : List TileRow}
    (answers : call.Answers tables answer) :
    answer.Perm (call.chunkRows tables) := by
  obtain ⟨sorted, found, ordered, rfl⟩ := answers
  have unique : sorted =
      (tables.tiles.rows.filter call.select).mergeSort call.order := by
    have ranked := List.pairwise_mergeSort
      (fun left middle right => @order_trans call left middle right)
      (@order_total call) (tables.tiles.rows.filter call.select)
    apply List.Perm.eq_of_pairwise _ ordered ranked
      (found.trans (List.mergeSort_perm _ _).symm)
    intro left right here there first second
    exact List.inj_on_of_nodup_map tables.rowids
      (List.mem_of_mem_filter (found.mem_iff.mp here))
      (List.mem_of_mem_filter (List.mem_mergeSort.mp there))
      (rowid_eq_of_order first second)
  have distinct : tables.tiles.rows.Nodup := tables.rowids.of_map _
  apply (List.perm_ext_iff_of_nodup
    ((found.nodup_iff.mpr (distinct.filter _)).sublist
      (List.take_sublist _ _)) (distinct.filter _)).mpr
  intro row
  constructor
  · intro taken
    apply List.mem_filter.mpr
    refine ⟨List.mem_of_mem_filter
      (found.mem_iff.mp (List.mem_of_mem_take taken)), decide_eq_true ?_⟩
    unfold ChunkCall.rowids chunkRowids
    rw [← unique]
    exact List.mem_map_of_mem taken
  · intro member
    obtain ⟨stored, chosen⟩ := List.mem_filter.mp member
    have named : row.rowid ∈ call.rowids tables := of_decide_eq_true chosen
    unfold ChunkCall.rowids chunkRowids at named
    rw [← unique] at named
    obtain ⟨other, taken, same⟩ := List.mem_map.mp named
    have otherStored : other ∈ tables.tiles.rows := List.mem_of_mem_filter
      (found.mem_iff.mp (List.mem_of_mem_take taken))
    rw [← List.inj_on_of_nodup_map tables.rowids otherStored stored same]
    exact taken

/-- The subquery names every row of the chunk once. -/
theorem length_rowids_le :
    (call.rowids tables).length ≤ (call.chunkRows tables).length := by
  have distinct : (call.rowids tables).Nodup := by
    have sorted : (((tables.tiles.rows.filter call.select).mergeSort
        call.order).map TileRow.rowid).Nodup := by
      apply (((List.mergeSort_perm _ call.order).map
        TileRow.rowid).nodup_iff).mpr
      exact tables.rowids.sublist (List.filter_sublist.map _)
    have front : (call.rowids tables).Sublist
        (((tables.tiles.rows.filter call.select).mergeSort
          call.order).map TileRow.rowid) :=
      (List.take_sublist _ _).map _
    exact sorted.sublist front
  have named : call.rowids tables ⊆
      (call.chunkRows tables).map TileRow.rowid := by
    intro rowid chosen
    obtain ⟨row, taken, rfl⟩ := List.mem_map.mp chosen
    have found : row ∈ tables.tiles.rows.filter call.select :=
      List.mem_mergeSort.mp (List.mem_of_mem_take taken)
    apply List.mem_map_of_mem
    exact List.mem_filter.mpr
      ⟨List.mem_of_mem_filter found, decide_eq_true chosen⟩
  simpa using (distinct.subperm named).length_le

/-- A chunk which is not full has every row of the subquery. -/
theorem mem_chunkRows_of_not_full
    (rest : (call.chunkRows tables).length < deleteChunk)
    (stored : row ∈ tables.tiles.rows) (selected : call.select row = true) :
    row ∈ call.chunkRows tables := by
  have found : row ∈ (tables.tiles.rows.filter call.select).mergeSort
      call.order :=
    List.mem_mergeSort.mpr (List.mem_filter.mpr ⟨stored, selected⟩)
  have short : ((tables.tiles.rows.filter call.select).mergeSort
      call.order).length ≤ deleteChunk := by
    have few : (call.rowids tables).length < deleteChunk :=
      length_rowids_le.trans_lt rest
    unfold ChunkCall.rowids chunkRowids at few
    rw [List.length_map, List.length_take] at few
    omega
  have chosen : row.rowid ∈ call.rowids tables := by
    unfold ChunkCall.rowids chunkRowids
    rw [List.take_of_length_le short]
    exact List.mem_map_of_mem found
  exact List.mem_filter.mpr ⟨stored, decide_eq_true chosen⟩

end Chunk

section Loop

variable {call : ChunkCall} {loop next : ChunkLoop} {row : TileRow}

theorem rows_chunk : (loop.chunk call).cache.tables.tiles.rows =
    loop.cache.tables.tiles.rows.filter fun row =>
      !decide (row.rowid ∈ call.rowids loop.cache.tables) :=
  rfl

/-- A chunk splits the stored rows into those which it deletes and those which
it keeps. -/
theorem perm_chunk :
    ((loop.chunk call).cache.tables.tiles.rows ++
      call.chunkRows loop.cache.tables).Perm
        loop.cache.tables.tiles.rows := by
  rw [rows_chunk]
  apply List.perm_append_comm.trans
  exact List.filter_append_perm _ _

theorem finished_chunk : (loop.chunk call).finished =
    decide ((call.chunkRows loop.cache.tables).length < deleteChunk) :=
  rfl

theorem mem_chunk_cases (stored : row ∈ loop.cache.tables.tiles.rows) :
    row ∈ (loop.chunk call).cache.tables.tiles.rows ∨
      row ∈ call.chunkRows loop.cache.tables :=
  List.mem_append.mp (perm_chunk.mem_iff.mpr stored)

/-- After the last chunk no stored row is left which the call is about. -/
theorem not_select_of_finished (ends : (loop.chunk call).finished = true)
    (left : row ∈ (loop.chunk call).cache.tables.tiles.rows) :
    call.select row = false := by
  rw [finished_chunk] at ends
  rw [rows_chunk] at left
  obtain ⟨stored, spared⟩ := List.mem_filter.mp left
  by_contra selected
  have chosen := mem_chunkRows_of_not_full (of_decide_eq_true ends) stored
    (Bool.eq_true_of_not_eq_false selected)
  have named := (List.mem_filter.mp chosen).2
  simp only [named, Bool.not_true, Bool.false_eq_true] at spared

theorem step_cases {label : ChunkLoop.Label}
    (stepped : loop.step call label = some next) :
    (label = .chunk ∧ loop.finished = false ∧ next = loop.chunk call) ∨
      ∃ op, label = .other op ∧
        next = { loop with cache := op.apply loop.cache } := by
  cases label with
  | chunk =>
      simp only [ChunkLoop.step] at stepped
      split at stepped
      · contradiction
      · next goes =>
        exact .inl ⟨rfl, Bool.eq_false_of_not_eq_true goes,
          (Option.some.inj stepped).symm⟩
  | other op => exact .inr ⟨op, rfl, (Option.some.inj stepped).symm⟩

end Loop

/-! ## The books of a call -/

/-- The totals are those of the deleted rows, and each of them was one which
the call is about when it was deleted. -/
structure ChunkLoop.Accounted (call : ChunkCall) (loop : ChunkLoop) :
    Prop where
  rows : loop.freedRows = loop.deleted.length
  bytes : loop.freedBytes = (loop.deleted.map TileRow.bytes).sum
  covered : ∀ row ∈ loop.deleted, call.covers row = true
  begins : loop.finished = false → call.begins = true

section Books

variable {call : ChunkCall} {loop next : ChunkLoop}

theorem accounted_initial (cache : TileCache) :
    ChunkLoop.Accounted call ⟨cache, 0, 0, !call.begins, []⟩ where
  rows := rfl
  bytes := rfl
  covered := by simp
  begins := by simp

theorem ChunkLoop.Accounted.chunk (books : loop.Accounted call)
    (goes : loop.finished = false) : (loop.chunk call).Accounted call where
  rows := by
    change loop.freedRows + (call.chunkRows loop.cache.tables).length = _
    rw [books.rows]
    exact List.length_append.symm
  bytes := by
    change loop.freedBytes +
      ((call.chunkRows loop.cache.tables).map TileRow.bytes).sum = _
    rw [books.bytes, ← List.sum_append, ← List.map_append]
    rfl
  covered := by
    intro row member
    rcases List.mem_append.mp member with old | new
    · exact books.covered row old
    · unfold ChunkCall.covers
      rw [books.begins goes, select_of_mem_chunkRows new]
      rfl
  begins := fun _ => books.begins goes

theorem ChunkLoop.Accounted.step (books : loop.Accounted call)
    {label : ChunkLoop.Label} (stepped : loop.step call label = some next) :
    next.Accounted call := by
  rcases step_cases stepped with ⟨_, goes, rfl⟩ | ⟨op, _, rfl⟩
  · exact books.chunk goes
  · exact ⟨books.rows, books.bytes, books.covered, books.begins⟩

end Books

/-! ## Rows which are left alone -/

/-- The step of another method keeps the row, if it is stored, as it is: it is
not touched, replaced, pinned, unpinned or evicted. -/
def ChunkLoop.Leaves (row : TileRow) (loop : ChunkLoop) :
    ChunkLoop.Label → Prop
  | .chunk => True
  | .other op => row ∈ loop.cache.tables.tiles.rows →
      row ∈ (op.apply loop.cache).tables.tiles.rows

/-- The step of another method stores no row under a new key. -/
def ChunkLoop.InsertsNothing (loop : ChunkLoop) : ChunkLoop.Label → Prop
  | .chunk => True
  | .other op => ∀ key, ((op.apply loop.cache).tables.row key).isSome →
      (loop.cache.tables.row key).isSome

section Undisturbed

variable {call : ChunkCall} {loop next : ChunkLoop} {row : TileRow}

/-- A row which is left alone waits for its chunk. -/
theorem deleted_or_stored (selected : call.select row = true)
    (waits : row ∈ loop.deleted ∨
      (row ∈ loop.cache.tables.tiles.rows ∧ loop.finished = false))
    {label : ChunkLoop.Label} (leaves : loop.Leaves row label)
    (stepped : loop.step call label = some next) :
    row ∈ next.deleted ∨
      (row ∈ next.cache.tables.tiles.rows ∧ next.finished = false) := by
  rcases step_cases stepped with ⟨_, goes, rfl⟩ | ⟨op, rfl, rfl⟩
  · rcases waits with gone | ⟨stored, _⟩
    · exact .inl (List.mem_append_left _ gone)
    · rcases @mem_chunk_cases call _ _ stored with kept | chosen
      · refine .inr ⟨kept, ?_⟩
        by_contra ends
        have spared := not_select_of_finished
          (Bool.eq_true_of_not_eq_false ends) kept
        rw [selected] at spared
        contradiction
      · exact .inl (List.mem_append_right _ chosen)
  · exact waits.imp_right fun stored => ⟨leaves stored.1, stored.2⟩

/-- Without a new key there is no further row. -/
theorem length_rows_le {before after : Tables}
    (keys : ∀ key, (after.row key).isSome → (before.row key).isSome) :
    after.tiles.rows.length ≤ before.tiles.rows.length := by
  have known : after.tiles.rows.map TileRow.key ⊆
      before.tiles.rows.map TileRow.key := by
    intro key member
    obtain ⟨row, stored, rfl⟩ := List.mem_map.mp member
    have found : after.row row.key = some row :=
      KeyedTable.lookup_eq_some.mpr ⟨stored, rfl⟩
    obtain ⟨old, lookup⟩ :=
      Option.isSome_iff_exists.mp (keys row.key (by rw [found]; rfl))
    obtain ⟨oldStored, same⟩ := KeyedTable.lookup_eq_some.mp lookup
    exact List.mem_map.mpr ⟨old, oldStored, same⟩
  simpa using (after.tiles.nodup.subperm known).length_le

/-- Deleted and stored rows together do not become more. -/
theorem length_rows_of_step {label : ChunkLoop.Label}
    (inserts : loop.InsertsNothing label)
    (stepped : loop.step call label = some next) :
    next.cache.tables.tiles.rows.length + next.deleted.length ≤
      loop.cache.tables.tiles.rows.length + loop.deleted.length := by
  rcases step_cases stepped with ⟨_, _, rfl⟩ | ⟨op, rfl, rfl⟩
  · have parts := (@perm_chunk call loop).length_eq
    have grown : (loop.chunk call).deleted.length = loop.deleted.length +
        (call.chunkRows loop.cache.tables).length := List.length_append
    rw [List.length_append] at parts
    omega
  · exact Nat.add_le_add_right (length_rows_le inserts) _

/-- Every round but the last has deleted a full chunk. -/
theorem full_chunks {start finish : ChunkLoop}
    {labels : List ChunkLoop.Label}
    (run : (chunkMachine call).exec start labels = some finish) :
    start.deleted.length +
        labels.countP ChunkLoop.Label.isChunk * deleteChunk ≤
      finish.deleted.length + if finish.finished then deleteChunk else 0 := by
  refine Machine.exec_history (motive := fun done loop =>
    start.deleted.length +
        done.countP ChunkLoop.Label.isChunk * deleteChunk ≤
      loop.deleted.length + if loop.finished then deleteChunk else 0)
    run (by simp) ?_
  intro before label loop next _ enough stepped
  rcases step_cases stepped with ⟨rfl, goes, rfl⟩ | ⟨op, rfl, rfl⟩
  · have grown : (loop.chunk call).deleted.length = loop.deleted.length +
        (call.chunkRows loop.cache.tables).length := List.length_append
    rw [goes] at enough
    rw [List.countP_append, finished_chunk, grown, Nat.add_mul]
    simp only [List.countP_singleton, ChunkLoop.Label.isChunk, if_true,
      Bool.false_eq_true, if_false, decide_eq_true_eq] at enough ⊢
    split <;> omega
  · simpa [List.countP_append, ChunkLoop.Label.isChunk] using enough

end Undisturbed

/-! ## The call as a whole -/

/-- Whatever runs between the chunks: a chunk deletes rows of its subquery
only and keeps every other row, whichever answer the database gives, the
totals of the call are those of the deleted rows, a row which the call is
about and which is left alone is deleted before the call ends, and when the
last chunk is done there is no row left which the call is about.  A call which
has not ended goes on, and as long as no row with a new key is stored the
number of its rounds is bounded by the rows at its start. -/
theorem chunked_deletion_is_exact {call : ChunkCall}
    {start finish : ChunkLoop} {labels : List ChunkLoop.Label}
    (begins : (chunkMachine call).initial start)
    (run : (chunkMachine call).exec start labels = some finish) :
    (∀ earlier later before after, labels = earlier ++ .chunk :: later →
      (chunkMachine call).exec start earlier = some before →
      before.step call .chunk = some after →
        ∃ removed, after.deleted = before.deleted ++ removed ∧
          (after.cache.tables.tiles.rows ++ removed).Perm
            before.cache.tables.tiles.rows ∧
          (∀ answer, call.Answers before.cache.tables answer →
            answer.Perm removed) ∧
          (∀ row ∈ removed, call.covers row = true) ∧
          after.cache.totalBytes =
            before.cache.totalBytes - (removed.map TileRow.bytes).sum ∧
          after.cache.pinnedBytes = before.cache.pinnedBytes ∧
          (after.finished = true →
            ∀ row ∈ after.cache.tables.tiles.rows,
              call.covers row = false)) ∧
      finish.freedRows = finish.deleted.length ∧
      finish.freedBytes = (finish.deleted.map TileRow.bytes).sum ∧
      (finish.finished = true →
        ∀ row ∈ start.cache.tables.tiles.rows, call.covers row = true →
          (chunkMachine call).AllSteps
            (fun loop label => loop.Leaves row label) start labels →
          row ∈ finish.deleted) ∧
      (finish.finished = false →
        ∃ after, finish.step call .chunk = some after) ∧
      ((chunkMachine call).AllSteps
        (fun loop label => loop.InsertsNothing label) start labels →
        labels.countP ChunkLoop.Label.isChunk ≤
          start.cache.tables.tiles.rows.length / deleteChunk + 1) := by
  obtain ⟨cache, rfl⟩ := begins
  have books : ∀ {earlier loop}, (chunkMachine call).exec
      ⟨cache, 0, 0, !call.begins, []⟩ earlier = some loop →
        loop.Accounted call := by
    intro earlier loop reached
    apply Machine.exec_preserves _ reached (accounted_initial cache)
    intro state label next holds stepped
    exact holds.step stepped
  refine ⟨?_, (books run).rows, (books run).bytes, ?_, ?_, ?_⟩
  · intro earlier later before after _ reached stepped
    rcases step_cases stepped with ⟨_, goes, rfl⟩ | ⟨op, other, _⟩
    · have going : call.begins = true := (books reached).begins goes
      refine ⟨call.chunkRows before.cache.tables, rfl, perm_chunk,
        fun _ => perm_chunkRows_of_answers, ?_, rfl, rfl, ?_⟩
      · intro row chosen
        unfold ChunkCall.covers
        rw [going, select_of_mem_chunkRows chosen]
        rfl
      · intro ends row kept
        unfold ChunkCall.covers
        rw [going, not_select_of_finished ends kept]
        rfl
    · contradiction
  · intro ends row stored covered left
    obtain ⟨going, selected⟩ := Bool.and_eq_true_iff.mp covered
    have waits := Machine.exec_preserves_of_allSteps
      (fun state label next holds leaves stepped =>
        deleted_or_stored selected holds leaves stepped)
      run left (.inr ⟨stored, by rw [going]; rfl⟩)
    rcases waits with gone | ⟨_, goes⟩
    · exact gone
    · rw [ends] at goes
      contradiction
  · intro goes
    refine ⟨finish.chunk call, ?_⟩
    simp only [ChunkLoop.step, goes, Bool.false_eq_true, if_false]
  · intro inserts
    have bounded : finish.cache.tables.tiles.rows.length +
        finish.deleted.length ≤ cache.tables.tiles.rows.length := by
      apply Machine.exec_preserves_of_allSteps _ run inserts (by simp)
      intro state label next holds nothing stepped
      exact (length_rows_of_step nothing stepped).trans holds
    have rounds := full_chunks run
    have positive : 0 < deleteChunk := by decide
    have few : labels.countP ChunkLoop.Label.isChunk * deleteChunk ≤
        cache.tables.tiles.rows.length + deleteChunk := by
      simp only [List.length_nil] at rounds
      split at rounds <;> omega
    rw [← Nat.add_div_right _ positive]
    exact (Nat.le_div_iff_mul_le positive).mpr few

theorem chunked_deletion_of_sampleCache :
    ∃ finish, (chunkMachine .clearUnpinned).exec
        ⟨sampleCache, 0, 0, false, []⟩
          [.other (.touch ⟨"osm", 1, 0, 0⟩ 9), .chunk] = some finish ∧
      finish.freedRows = 1 ∧
      (finish.deleted.map TileRow.bytes).sum = 40 := by
  have run : (((chunkMachine .clearUnpinned).exec
      ⟨sampleCache, 0, 0, false, []⟩
        [.other (.touch ⟨"osm", 1, 0, 0⟩ 9), .chunk]).map
          fun loop => (loop.freedRows, loop.freedBytes)) = some (1, 40) := by
    decide +kernel
  obtain ⟨finish, ran, totals⟩ := Option.map_eq_some_iff.mp run
  obtain ⟨rows, bytes⟩ := Prod.mk.inj totals
  have exact := chunked_deletion_is_exact ⟨sampleCache, rfl⟩ ran
  exact ⟨finish, ran, rows, exact.2.2.1.symm.trans bytes⟩

end ChartLocker.Cache
