import OpenMplane.GuardedRuns
import OpenMplane.RunningDatastore

/-!
# Persistent values across restarts

A handler with persistent paths runs through DONE events and restarts.  A
deletion never reaches the saved map, so a deleted leaf comes back; and an
event that is not processed to its end leaves later values out.  In a run that
has neither, and whose texts survive the file, the saved map tracks the
datastore, and every restart finds the persistent values as they were.
-/

namespace OpenMplane

open GuardedRuns StatePrograms

namespace YangPersist

section Saving

theorem set_paths (persist : YangPersist) (xpath value : String) :
    (persist.set xpath value).mPersistPaths = persist.mPersistPaths := by
  unfold set
  split
  · split <;> rfl
  · rfl

theorem setPairs_paths (persist : YangPersist) (pairs : List (String × String)) :
    (persist.setPairs pairs).mPersistPaths = persist.mPersistPaths := by
  induction pairs generalizing persist with
  | nil => rfl
  | cons pair pairs ih =>
      rw [setPairs, List.foldl_cons]
      exact (ih _).trans (set_paths persist pair.1 pair.2)

theorem set_mValues (persist : YangPersist) (xpath value key : String) :
    (persist.set xpath value).mValues[key]? =
      if persist.xpathMatchesPersist xpath ∧ xpath = key then some value
      else persist.mValues[key]? := by
  unfold set
  by_cases matched : persist.xpathMatchesPersist xpath
  · by_cases held : persist.mValues[xpath]? = some value
    · by_cases same : xpath = key
      · subst same
        simp [held]
      · simp [held, same]
    · simp [matched, held, Std.ExtTreeMap.getElem?_insert]
  · simp [matched]

theorem xpathMatchesPersist_set (persist : YangPersist) (xpath value key : String) :
    (persist.set xpath value).xpathMatchesPersist key = persist.xpathMatchesPersist key := by
  rw [xpathMatchesPersist, xpathMatchesPersist, set_paths]

/-- A value after a row of saves is one of the row, or was there before and
the row does not write to its key. -/
theorem setPairs_eq_some {persist : YangPersist} {pairs : List (String × String)}
    {key value : String} (held : (persist.setPairs pairs).mValues[key]? = some value) :
    (persist.xpathMatchesPersist key ∧ (key, value) ∈ pairs) ∨
      (persist.mValues[key]? = some value ∧
        (persist.xpathMatchesPersist key → ∀ other, (key, other) ∉ pairs)) := by
  induction pairs generalizing persist with
  | nil => exact Or.inr ⟨held, by simp⟩
  | cons pair pairs ih =>
      rw [setPairs, List.foldl_cons] at held
      rcases ih held with ⟨matched, member⟩ | ⟨before, untouched⟩
      · rw [xpathMatchesPersist_set] at matched
        exact Or.inl ⟨matched, by simp [member]⟩
      · rw [xpathMatchesPersist_set] at untouched
        rw [set_mValues] at before
        split at before
        · next written =>
            obtain ⟨matched, rfl⟩ := written
            rw [← Option.some.inj before]
            exact Or.inl ⟨matched, by simp⟩
        · next notWritten =>
            refine Or.inr ⟨before, ?_⟩
            intro matched other member
            rcases List.mem_cons.mp member with rfl | later
            · exact notWritten ⟨matched, rfl⟩
            · exact untouched matched other later

theorem exists_setPairs_of_held {persist : YangPersist} (pairs : List (String × String))
    {key value : String} (held : persist.mValues[key]? = some value) :
    ∃ other, (persist.setPairs pairs).mValues[key]? = some other := by
  induction pairs generalizing persist value with
  | nil => exact ⟨value, held⟩
  | cons pair pairs ih =>
      rw [setPairs, List.foldl_cons]
      by_cases written : persist.xpathMatchesPersist pair.1 ∧ pair.1 = key
      · have kept : (persist.set pair.1 pair.2).mValues[key]? = some pair.2 := by
          rw [set_mValues, if_pos written]
        exact ih kept
      · have kept : (persist.set pair.1 pair.2).mValues[key]? = some value := by
          rw [set_mValues, if_neg written, held]
        exact ih kept

/-- A persistent key of the row is held after it. -/
theorem exists_setPairs_of_mem {persist : YangPersist} {pairs : List (String × String)}
    {key value : String} (matched : persist.xpathMatchesPersist key)
    (member : (key, value) ∈ pairs) :
    ∃ other, (persist.setPairs pairs).mValues[key]? = some other := by
  induction pairs generalizing persist with
  | nil => simp at member
  | cons pair pairs ih =>
      rw [setPairs, List.foldl_cons]
      rcases List.mem_cons.mp member with rfl | later
      · have written : (persist.set key value).mValues[key]? = some value := by
          rw [set_mValues, if_pos ⟨matched, rfl⟩]
        exact exists_setPairs_of_held pairs written
      · exact ih (by rwa [xpathMatchesPersist_set]) later

theorem set_eq_or_dirty (persist : YangPersist) (xpath value : String) :
    persist.set xpath value = persist ∨ (persist.set xpath value).mDirty = true := by
  unfold set
  split
  · split
    · exact Or.inl rfl
    · exact Or.inr rfl
  · exact Or.inl rfl

/-- A row of saves that leaves the map clean has changed nothing. -/
theorem setPairs_eq_or_dirty (persist : YangPersist) (pairs : List (String × String)) :
    persist.setPairs pairs = persist ∨ (persist.setPairs pairs).mDirty = true := by
  induction pairs generalizing persist with
  | nil => exact Or.inl rfl
  | cons pair pairs ih =>
      have tail := ih (persist.set pair.1 pair.2)
      rw [setPairs, List.foldl_cons]
      rcases set_eq_or_dirty persist pair.1 pair.2 with same | dirty
      · rw [same] at tail ⊢
        exact tail
      · rcases tail with same | dirtyAfter
        · exact Or.inr ((congrArg mDirty same).trans dirty)
        · exact Or.inr dirtyAfter

end Saving

end YangPersist

/-- A handler with its module, as it is installed: the hooks and their fresh
state, the fixed paths, and the datastore before saved values are written to it. -/
structure Site (σ : Type) (schema : Schema) where
  name : ModuleName
  hooks : Hooks σ
  fresh : σ
  subscribed : Option String
  readOnlyPaths : List String
  persistPaths : List String
  installed : Datastore schema

/-- What the file holds when the handler is gone. -/
def Running.fileLeft {σ : Type} {schema : Schema} (running : Running σ schema)
    (flushed : Bool) : Option String :=
  if flushed then (running.handler.persist.write true running.handler.file).2
  else running.handler.file

/-- A DONE event, or a restart with or without the flush of the old
`YangPersist`'s destructor. -/
inductive SiteInput (schema : Schema)
  | commit (transaction : Transaction schema) (throws : Option StdException)
      (readable opens : Bool)
  | restart (flushed : Bool)

namespace Site

variable {σ : Type} {schema : Schema} (site : Site σ schema)

/-- A new `YangPersist` that has read the file. -/
def persistFrom (file : Option String) : YangPersist :=
  ((YangPersist.mk site.name false ∅ []).read file).setPersist site.persistPaths

/-- The system after a start that finds the file. -/
def boot (file : Option String) : Running σ schema where
  handler := ⟨site.fresh, site.readOnlyPaths, site.persistFrom file, file⟩
  datastore := site.installed.initialise (site.persistFrom file).mValues

def step (running : Running σ schema) : SiteInput schema → Running σ schema
  | .commit transaction throws readable opens =>
      let datastore := transaction.apply running.datastore
      { handler := finalState (HandlerCallback.module_change site.hooks
          ⟨datastore.session readable, opens⟩ ⟨transaction.reported, throws⟩
          site.subscribed .done running.handler)
        datastore }
  | .restart flushed => site.boot (running.fileLeft flushed)

/-- Whether an xpath is under a persistent path. -/
def Persistent (xpath : String) : Prop :=
  ∃ path ∈ site.persistPaths, startsWith xpath path

/-- After every restart the persistent leaves are as they are now. -/
def Restores (running : Running σ schema) : Prop :=
  ∀ flushed xpath, site.Persistent xpath →
    (site.step running (.restart flushed)).datastore.leaves[xpath]? =
      running.datastore.leaves[xpath]?

/-- A leaf that is saved as it reads and whose line survives the file. -/
structure Savable (schema : Schema) (leaf : Leaf) : Prop where
  safe : ∀ xpath ∈ [leaf.path.text, schema.instancePath leaf],
    YangPersist.SafeEntry (xpath, leaf.text)
  restorable : ∀ xpath ∈ [leaf.path.text, schema.instancePath leaf],
    YangPersist.Restorable xpath.toList leaf.text.toList
  printed : leaf.path ∈ schema.leafLists →
    YangParamUtils.toString (schema.valueAt (schema.instancePath leaf) leaf).toParam = leaf.text

/-- A commit stores a node that has a persistent leaf afterwards. -/
def Touches (running : Running σ schema) (transaction : Transaction schema) : Prop :=
  ∃ change ∈ transaction.changes, change.Stores ∧
    ∃ entry ∈ (transaction.apply running.datastore).leaves.toList,
      entry.2.path = change.leaf.path ∧ site.Persistent entry.1

/-- A commit that is processed to its end if it stores anything persistent, deletes
no persistent leaf, and stores or reads back only persistent leaves that can be
saved. -/
structure Recoverable (running : Running σ schema) (transaction : Transaction schema)
    (throws : Option StdException) (readable opens : Bool) : Prop where
  hooksReturn : site.Touches running transaction →
    ∃ derived, HandlerCallback.changeHooks site.hooks (site.subscribed.getD "")
      transaction.reported running.handler.derived = .ok () derived
  ends : site.Touches running transaction → throws = none
  read : site.Touches running transaction → readable = true
  opened : site.Touches running transaction → opens = true
  notDeleted : ∀ leaf, .deleted leaf ∈ transaction.changes →
    ¬ site.Persistent (schema.instancePath leaf)
  savable : ∀ change ∈ transaction.changes, change.Stores →
    ∀ entry ∈ (transaction.apply running.datastore).leaves.toList,
      entry.2.path = change.leaf.path → site.Persistent entry.1 → Savable schema entry.2

instance (xpath : String) : Decidable (site.Persistent xpath) :=
  inferInstanceAs (Decidable (∃ path ∈ site.persistPaths, _))

instance (running : Running σ schema) (transaction : Transaction schema) :
    Decidable (site.Touches running transaction) :=
  inferInstanceAs (Decidable (∃ change ∈ transaction.changes, _))

instance (leaf : Leaf) : Decidable (Savable schema leaf) :=
  decidable_of_iff
    ((∀ xpath ∈ [leaf.path.text, schema.instancePath leaf],
        YangPersist.SafeEntry (xpath, leaf.text) ∧
          YangPersist.Restorable xpath.toList leaf.text.toList) ∧
      (leaf.path ∈ schema.leafLists →
        YangParamUtils.toString (schema.valueAt (schema.instancePath leaf) leaf).toParam =
          leaf.text))
    ⟨fun ⟨lines, printed⟩ => ⟨fun xpath member => (lines xpath member).1,
      fun xpath member => (lines xpath member).2, printed⟩,
    fun savable => ⟨fun xpath member =>
      ⟨savable.safe xpath member, savable.restorable xpath member⟩, savable.printed⟩⟩

/-- The condition on an input in the state it arrives in. -/
def Guard (running : Running σ schema) : SiteInput schema → Prop
  | .commit transaction throws readable opens =>
      site.Recoverable running transaction throws readable opens
  | .restart _ => True

/-- A saved pair that stands for a leaf: its instance path, or the path of its
leaf-list, with its text. -/
structure StandsFor (schema : Schema) (xpath value : String) (leaf : Leaf) : Prop where
  text : value = leaf.text
  path : xpath = schema.instancePath leaf ∨
    xpath = leaf.path.text ∧ leaf.path ∈ schema.leafLists

/-- The saved map tracks the datastore. -/
structure Tracks (running : Running σ schema) : Prop where
  paths : running.handler.persist.mPersistPaths = site.persistPaths
  persistent : ∀ xpath value, running.handler.persist.mValues[xpath]? = some value →
    site.Persistent xpath
  savable : ∀ xpath value, running.handler.persist.mValues[xpath]? = some value →
    YangPersist.SafeEntry (xpath, value) ∧ YangPersist.Restorable xpath.toList value.toList
  backed : ∀ xpath value, running.handler.persist.mValues[xpath]? = some value →
    ∃ leaf, running.datastore.leaves[schema.instancePath leaf]? = some leaf ∧
      StandsFor schema xpath value leaf
  covered : ∀ xpath leaf, site.Persistent xpath →
    running.datastore.leaves[xpath]? = some leaf →
    site.installed.leaves[xpath]? = some leaf ∨
      ∃ value, running.handler.persist.mValues[xpath]? = some value
  kept : ∀ xpath leaf, site.Persistent xpath → site.installed.leaves[xpath]? = some leaf →
    ∃ other, running.datastore.leaves[xpath]? = some other
  synced : (running.handler.persist.read running.handler.file).mValues =
    running.handler.persist.mValues

section Restoring

variable {site : Site σ schema} {running : Running σ schema}

theorem xpathMatchesPersist_iff {persist : YangPersist}
    (paths : persist.mPersistPaths = site.persistPaths) (xpath : String) :
    persist.xpathMatchesPersist xpath ↔ site.Persistent xpath := by
  rw [YangPersist.xpathMatchesPersist, List.any_eq_true, paths]
  rfl

theorem instancePath_of_mem {leaf : Leaf} (listed : leaf.path ∈ schema.leafLists) :
    schema.instancePath leaf = leaf.entryPath := if_pos listed

theorem instancePath_of_notMem {leaf : Leaf} (plain : leaf.path ∉ schema.leafLists) :
    schema.instancePath leaf = leaf.path.text := if_neg plain

theorem getLast_entryPath (leaf : Leaf) : leaf.entryPath.toList.getLast? = some ']' := by
  have shape : leaf.entryPath.toList =
      (leaf.path.text.toList ++ "[.='".toList ++ leaf.text.toList ++ ['\'']) ++ [']'] := by
    simp [Leaf.entryPath]
  rw [shape, List.getLast?_concat]

theorem entryPath_ne_path (leaf : Leaf) (path : NodePath) : leaf.entryPath ≠ path.text := by
  intro same
  exact path.named (same ▸ getLast_entryPath leaf)

/-- Writing a saved pair back writes the leaf it stands for. -/
theorem leafAt_of_standsFor {xpath value : String} {leaf : Leaf}
    (stands : StandsFor schema xpath value leaf) : schema.leafAt xpath value = some leaf := by
  obtain ⟨rfl, path⟩ := stands
  by_cases byNode : xpath = leaf.path.text
  · subst byNode
    rw [Schema.leafAt, dif_pos leaf.path.named]
  · have listed : leaf.path ∈ schema.leafLists := by
      by_contra plain
      rcases path with instanceOf | ⟨node, -⟩
      · exact byNode (instanceOf.trans (instancePath_of_notMem plain))
      · exact byNode node
    have entry : xpath = leaf.entryPath := by
      rcases path with instanceOf | ⟨node, -⟩
      · exact instanceOf.trans (instancePath_of_mem listed)
      · exact absurd node byNode
    subst entry
    rw [Schema.leafAt, dif_neg (by simp [getLast_entryPath])]
    cases found : (schema.leafLists.map fun path => Leaf.mk path leaf.text).find?
        fun other => other.entryPath = leaf.entryPath with
    | none =>
        rw [List.find?_eq_none] at found
        have missed := found leaf (List.mem_map.mpr ⟨leaf.path, listed, rfl⟩)
        simp at missed
    | some other =>
        have same : other.entryPath = leaf.entryPath := by
          simpa using List.find?_some found
        obtain ⟨path, member, rfl⟩ := List.mem_map.mp (List.mem_of_find?_eq_some found)
        rw [schema.unambiguous _ leaf member listed same]

/-- Saved pairs that all stand for leaves of one datastore write exactly those
leaves back. -/
theorem foldl_initialise (held : Datastore schema) {entries : List (String × String)}
    (stands : ∀ entry ∈ entries, ∃ leaf, held.leaves[schema.instancePath leaf]? = some leaf ∧
      StandsFor schema entry.1 entry.2 leaf) (datastore : Datastore schema) (xpath : String) :
    let restored := entries.foldl Datastore.setItemStr datastore
    ((∃ entry ∈ entries, ∃ leaf, StandsFor schema entry.1 entry.2 leaf ∧
        schema.instancePath leaf = xpath) → restored.leaves[xpath]? = held.leaves[xpath]?) ∧
    (restored.leaves[xpath]? = held.leaves[xpath]? ∨
      restored.leaves[xpath]? = datastore.leaves[xpath]?) := by
  induction entries generalizing datastore with
  | nil => simp
  | cons entry entries ih =>
      obtain ⟨leaf, present, standsHead⟩ := stands entry (by simp)
      have written := leafAt_of_standsFor standsHead
      obtain ⟨touched, either⟩ := ih (fun other member => stands other (by simp [member]))
        (datastore.put leaf)
      have step : datastore.setItemStr entry = datastore.put leaf := by
        rw [Datastore.setItemStr, written]
      simp only [List.foldl_cons, step]
      have putHere : schema.instancePath leaf = xpath →
          (datastore.put leaf).leaves[xpath]? = held.leaves[xpath]? := by
        intro here
        rw [Datastore.put_leaves, if_pos here, ← here, present]
      constructor
      · rintro ⟨other, member, standing, standsOther, here⟩
        rcases List.mem_cons.mp member with rfl | later
        · have same : standing = leaf :=
            Option.some.inj ((leafAt_of_standsFor standsOther).symm.trans written)
          rw [same] at here
          rcases either with equal | equal
          · exact equal
          · exact equal.trans (putHere here)
        · exact touched ⟨other, later, standing, standsOther, here⟩
      · rcases either with equal | equal
        · exact Or.inl equal
        · by_cases here : schema.instancePath leaf = xpath
          · exact Or.inl (equal.trans (putHere here))
          · rw [Datastore.put_leaves, if_neg here] at equal
            exact Or.inr equal

/-- Reading a file that holds the saved map gives the saved map. -/
theorem read_write_of_savable {persist : YangPersist} {file : Option String}
    (savable : ∀ xpath value, persist.mValues[xpath]? = some value →
      YangPersist.SafeEntry (xpath, value) ∧ YangPersist.Restorable xpath.toList value.toList)
    (synced : persist.mDirty = false → (persist.read file).mValues = persist.mValues) :
    (persist.read (persist.write true file).2).mValues = persist.mValues := by
  cases dirty : persist.mDirty with
  | true =>
      apply YangPersist.read_write_of_restorable dirty
      · intro entry member
        exact (savable _ _ (Std.ExtTreeMap.mem_toList_iff_getElem?_eq_some.mp member)).1
      · intro entry member
        exact (savable _ _ (Std.ExtTreeMap.mem_toList_iff_getElem?_eq_some.mp member)).2
  | false =>
      have kept : (persist.write true file).2 = file := by simp [YangPersist.write, dirty]
      rw [kept]
      exact synced dirty

theorem read_fileLeft (tracks : site.Tracks running) (flushed : Bool) :
    (site.persistFrom (running.fileLeft flushed)).mValues =
      running.handler.persist.mValues := by
  cases flushed with
  | false => exact tracks.synced
  | true => exact read_write_of_savable tracks.savable fun _ => tracks.synced

/-- The leaf at an instance path determines the text saved under it. -/
theorem text_of_backed {xpath value : String} {leaf : Leaf} {datastore : Datastore schema}
    (backed : ∃ leaf, datastore.leaves[schema.instancePath leaf]? = some leaf ∧
      StandsFor schema xpath value leaf)
    (held : datastore.leaves[xpath]? = some leaf) : StandsFor schema xpath value leaf := by
  have here := datastore.keyed xpath leaf held
  obtain ⟨other, present, stands⟩ := backed
  rcases stands.path with instanceOf | ⟨node, listed⟩
  · rw [← instanceOf, held] at present
    rw [Option.some.inj present]
    exact stands
  · -- the leaf's own path cannot be the path of a leaf-list
    exfalso
    by_cases listedLeaf : leaf.path ∈ schema.leafLists
    · rw [instancePath_of_mem listedLeaf, node] at here
      exact entryPath_ne_path leaf other.path here
    · rw [instancePath_of_notMem listedLeaf, node] at here
      have same : leaf.path = other.path := by
        cases leafPath : leaf.path
        cases otherPath : other.path
        simp_all
      exact listedLeaf (same ▸ listed)

/-- A restart of a tracked system finds the persistent leaves as they were. -/
theorem restores_of_tracks (tracks : site.Tracks running) : site.Restores running := by
  intro flushed xpath persistent
  have values := read_fileLeft tracks flushed
  simp only [step, boot, Datastore.initialise, values]
  have backed : ∀ entry ∈ running.handler.persist.mValues.toList, ∃ leaf,
      running.datastore.leaves[schema.instancePath leaf]? = some leaf ∧
        StandsFor schema entry.1 entry.2 leaf := fun entry member =>
    tracks.backed _ _ (Std.ExtTreeMap.mem_toList_iff_getElem?_eq_some.mp member)
  obtain ⟨touched, either⟩ := foldl_initialise running.datastore backed site.installed xpath
  rcases either with equal | equal
  · exact equal
  · rw [equal]
    cases installed : site.installed.leaves[xpath]? with
    | some first =>
        obtain ⟨leaf, held⟩ := tracks.kept xpath first persistent installed
        rcases tracks.covered xpath leaf persistent held with same | ⟨value, saved⟩
        · rw [held, ← installed, same]
        · have stands := text_of_backed (tracks.backed xpath value saved) held
          have member := Std.ExtTreeMap.mem_toList_iff_getElem?_eq_some.mpr saved
          rw [← installed, ← equal]
          exact touched ⟨(xpath, value), member, leaf, stands,
            running.datastore.keyed xpath leaf held⟩
    | none =>
        cases held : running.datastore.leaves[xpath]? with
        | none => rfl
        | some leaf =>
            rcases tracks.covered xpath leaf persistent held with same | ⟨value, saved⟩
            · rw [installed] at same
              contradiction
            · have stands := text_of_backed (tracks.backed xpath value saved) held
              have member := Std.ExtTreeMap.mem_toList_iff_getElem?_eq_some.mpr saved
              rw [← installed, ← equal, ← held]
              exact touched ⟨(xpath, value), member, leaf, stands,
                running.datastore.keyed xpath leaf held⟩

end Restoring

section Tracking

variable {site : Site σ schema} {running : Running σ schema}

/-- The pairs saved for a stored leaf: its own, and those of the other leaves
that its xpath reads back. -/
theorem mem_savedPairs {datastore : Datastore schema} {stored : Leaf} {key value : String} :
    (key, value) ∈ YangHandlerSysrepoUnlogged.savedPairs (datastore.session true)
        (schema.valueAt stored.path.text stored) ↔
      (key = stored.path.text ∧ value = stored.text) ∨
        ∃ (xpath : String) (leaf : Leaf), datastore.leaves[xpath]? = some leaf ∧
          (leaf.path.text = stored.path.text ∨ schema.instancePath leaf = stored.path.text) ∧
          RadioDatastoreSysrepo.skipped (schema.typed leaf.path leaf.text) = false ∧
          schema.instancePath leaf ≠ stored.path.text ∧ key = schema.instancePath leaf ∧
          value = YangParamUtils.toString
            (schema.valueAt (schema.instancePath leaf) leaf).toParam := by
  simp only [YangHandlerSysrepoUnlogged.savedPairs, RadioDatastoreSysrepo.getItems,
    Datastore.session, ↓reduceIte, Option.map_some, List.mem_cons, Prod.mk.injEq, List.mem_map,
    List.mem_filter, Datastore.items, Schema.valueAt, SrVal.toParam]
  constructor
  · rintro (own | ⟨param, ⟨⟨read, ⟨⟨leaf, ⟨⟨entry, member, rfl⟩, named⟩, rfl⟩, kept⟩, rfl⟩,
      other⟩, rfl, rfl⟩)
    · exact Or.inl own
    · refine Or.inr ⟨entry.1, entry.2, Std.ExtTreeMap.mem_toList_iff_getElem?_eq_some.mp member,
        by simpa using named, by simpa using kept, of_decide_eq_true other, rfl, rfl⟩
  · rintro (own | ⟨xpath, leaf, held, named, kept, other, rfl, rfl⟩)
    · exact Or.inl own
    · refine Or.inr ⟨_, ⟨⟨_, ⟨⟨leaf, ⟨⟨(xpath, leaf),
        Std.ExtTreeMap.mem_toList_iff_getElem?_eq_some.mpr held, rfl⟩, ?_⟩, rfl⟩, ?_⟩, rfl⟩, ?_⟩,
        rfl, rfl⟩
      · simpa using named
      · simpa using kept
      · exact decide_eq_true other

/-- A read that fails saves no more than one that answers. -/
theorem savedPairs_subset {datastore : Datastore schema} {readable : Bool} {value : SrVal} :
    YangHandlerSysrepoUnlogged.savedPairs (datastore.session readable) value ⊆
      YangHandlerSysrepoUnlogged.savedPairs (datastore.session true) value := by
  cases readable with
  | true => exact List.Subset.refl _
  | false => exact List.cons_subset_cons _ (List.nil_subset _)

theorem changePairs_reported (session : SrSession) (change : LeafChange) :
    HandlerCallback.changePairs session (change.reported schema) =
      if change.Stores then YangHandlerSysrepoUnlogged.savedPairs session
        (schema.valueAt change.leaf.path.text change.leaf) else [] := by
  cases change with
  | created leaf => rfl
  | modified oldText leaf => rfl
  | deleted leaf => rfl

theorem mem_pairs {transaction : Transaction schema} {session : SrSession}
    {pair : String × String} :
    pair ∈ transaction.reported.flatMap (HandlerCallback.changePairs session) ↔
      ∃ change ∈ transaction.changes, change.Stores ∧
        pair ∈ YangHandlerSysrepoUnlogged.savedPairs session
          (schema.valueAt change.leaf.path.text change.leaf) := by
  simp only [Transaction.reported, List.mem_flatMap, List.mem_map, exists_exists_and_eq_and,
    changePairs_reported]
  constructor
  · rintro ⟨change, member, inside⟩
    split at inside
    · next stores => exact ⟨change, member, stores, inside⟩
    · simp at inside
  · rintro ⟨change, member, stores, inside⟩
    exact ⟨change, member, by rwa [if_pos stores]⟩

/-- Below a persistent node path everything is persistent. -/
theorem persistent_instancePath {leaf : Leaf} (persistent : site.Persistent leaf.path.text) :
    site.Persistent (schema.instancePath leaf) := by
  obtain ⟨path, member, starts⟩ := persistent
  refine ⟨path, member, ?_⟩
  simp only [startsWith, decide_eq_true_eq] at starts ⊢
  by_cases listed : leaf.path ∈ schema.leafLists
  · rw [instancePath_of_mem listed]
    refine starts.trans ⟨("[.='" ++ leaf.text ++ "']").toList, ?_⟩
    simp [Leaf.entryPath]
  · rwa [instancePath_of_notMem listed]

variable {transaction : Transaction schema} {throws : Option StdException}
  {readable opens : Bool}

/-- A persistent key that a commit would save is one of a persistent leaf it touches. -/
theorem touches_of_mem_pairs {pair : String × String}
    (saved : pair ∈ transaction.reported.flatMap
      (HandlerCallback.changePairs ((transaction.apply running.datastore).session readable)))
    (persistent : site.Persistent pair.1) : site.Touches running transaction := by
  obtain ⟨change, member, stores, inside⟩ := mem_pairs.mp saved
  refine ⟨change, member, stores, ?_⟩
  rcases mem_savedPairs.mp (savedPairs_subset inside) with
    ⟨own, -⟩ | ⟨xpath, leaf, held, named, -, other, key, -⟩
  · refine ⟨(schema.instancePath change.leaf, change.leaf), ?_, rfl, ?_⟩
    · rw [Std.ExtTreeMap.mem_toList_iff_getElem?_eq_some, Transaction.apply,
        Transaction.foldl_apply_of_mem transaction.once member, if_pos stores]
    · exact persistent_instancePath (own ▸ persistent)
  · refine ⟨(xpath, leaf), Std.ExtTreeMap.mem_toList_iff_getElem?_eq_some.mpr held, ?_, ?_⟩
    · rcases named with node | instanceOf
      · cases leafPath : leaf.path
        cases otherPath : change.leaf.path
        simp_all
      · exact absurd instanceOf other
    · rw [← (transaction.apply running.datastore).keyed xpath leaf held, ← key]
      exact persistent

theorem savable_of_held
    (recoverable : site.Recoverable running transaction throws readable opens)
    {change : LeafChange} (member : change ∈ transaction.changes) (stores : change.Stores)
    {xpath : String} {leaf : Leaf}
    (held : (transaction.apply running.datastore).leaves[xpath]? = some leaf)
    (same : leaf.path = change.leaf.path) (persistent : site.Persistent xpath) :
    Savable schema leaf :=
  recoverable.savable change member stores (xpath, leaf)
    (Std.ExtTreeMap.mem_toList_iff_getElem?_eq_some.mpr held) same persistent

/-- A pair that a recoverable commit saves stands for a leaf it leaves behind. -/
theorem standsFor_of_mem_pairs
    (recoverable : site.Recoverable running transaction throws readable opens)
    (key value : String) (persistent : site.Persistent key)
    (saved : (key, value) ∈ transaction.reported.flatMap
      (HandlerCallback.changePairs ((transaction.apply running.datastore).session true))) :
    ∃ leaf, (transaction.apply running.datastore).leaves[schema.instancePath leaf]? =
      some leaf ∧ StandsFor schema key value leaf ∧ Savable schema leaf := by
  obtain ⟨change, member, stores, inside⟩ := mem_pairs.mp saved
  have stored : (transaction.apply running.datastore).leaves[
      schema.instancePath change.leaf]? = some change.leaf := by
    rw [Transaction.apply, Transaction.foldl_apply_of_mem transaction.once member,
      if_pos stores]
  rcases mem_savedPairs.mp inside with ⟨rfl, rfl⟩ | ⟨xpath, leaf, held, named, kept, other, rfl, rfl⟩
  · have savable := savable_of_held recoverable member stores stored rfl
      (persistent_instancePath persistent)
    refine ⟨change.leaf, stored, ⟨rfl, ?_⟩, savable⟩
    by_cases listed : change.leaf.path ∈ schema.leafLists
    · exact Or.inr ⟨rfl, listed⟩
    · exact Or.inl (instancePath_of_notMem listed).symm
  · have same : leaf.path = change.leaf.path := by
      rcases named with node | instanceOf
      · cases leafPath : leaf.path
        cases otherPath : change.leaf.path
        simp_all
      · exact absurd instanceOf other
    have here := (transaction.apply running.datastore).keyed xpath leaf held
    rw [here] at persistent
    have savable := savable_of_held recoverable member stores held same persistent
    have listed : leaf.path ∈ schema.leafLists := by
      by_contra plain
      exact other ((instancePath_of_notMem plain).trans (congrArg NodePath.text same))
    exact ⟨leaf, by rw [here, held], ⟨savable.printed listed, Or.inl rfl⟩, savable⟩

/-- A recoverable commit saves every persistent leaf it stores. -/
theorem mem_pairs_of_stores
    (recoverable : site.Recoverable running transaction throws readable opens)
    (change : LeafChange) (member : change ∈ transaction.changes) (stores : change.Stores)
    (persistent : site.Persistent (schema.instancePath change.leaf)) :
    (schema.instancePath change.leaf, change.leaf.text) ∈
      transaction.reported.flatMap (HandlerCallback.changePairs
        ((transaction.apply running.datastore).session true)) := by
  have stored : (transaction.apply running.datastore).leaves[
      schema.instancePath change.leaf]? = some change.leaf := by
    rw [Transaction.apply, Transaction.foldl_apply_of_mem transaction.once member,
      if_pos stores]
  have savable := savable_of_held recoverable member stores stored rfl persistent
  apply mem_pairs.mpr
  refine ⟨change, member, stores, mem_savedPairs.mpr ?_⟩
  by_cases listed : change.leaf.path ∈ schema.leafLists
  · have printed := savable.printed listed
    have other : schema.instancePath change.leaf ≠ change.leaf.path.text := by
      rw [instancePath_of_mem listed]
      exact entryPath_ne_path change.leaf change.leaf.path
    have kept : RadioDatastoreSysrepo.skipped
        (schema.typed change.leaf.path change.leaf.text) = false := by
      have nonempty := (savable.restorable change.leaf.path.text (by simp)).valueNonempty
      rw [← printed] at nonempty
      by_contra skipped
      apply nonempty
      simp only [Schema.valueAt, SrVal.toParam]
      generalize schema.typed change.leaf.path change.leaf.text = data at skipped ⊢
      cases data <;> simp_all [RadioDatastoreSysrepo.skipped, SrData.toYang,
        YangParamUtils.toString]
    exact Or.inr ⟨_, change.leaf, stored, Or.inl rfl, kept, other, rfl, printed.symm⟩
  · exact Or.inl ⟨instancePath_of_notMem listed, rfl⟩

end Tracking

section Runs

variable {site : Site σ schema} {running : Running σ schema}

/-- A first start, without a file, is tracked. -/
theorem tracks_boot : site.Tracks (site.boot none) where
  paths := rfl
  persistent xpath value saved := by simp [boot, persistFrom, YangPersist.setPersist,
    YangPersist.read] at saved
  savable xpath value saved := by simp [boot, persistFrom, YangPersist.setPersist,
    YangPersist.read] at saved
  backed xpath value saved := by simp [boot, persistFrom, YangPersist.setPersist,
    YangPersist.read] at saved
  covered xpath leaf _ held := Or.inl held
  kept xpath leaf _ held := ⟨leaf, held⟩
  synced := rfl

/-- A commit keeps the saved map on track if what it saves stands for the persistent
leaves it leaves behind, and what it stores of them is saved and written. -/
theorem Tracks.commit (tracks : site.Tracks running) {transaction : Transaction schema}
    {pairs : List (String × String)} {handler : HandlerState σ}
    (undeleted : ∀ leaf, .deleted leaf ∈ transaction.changes →
      ¬ site.Persistent (schema.instancePath leaf))
    (fromPair : ∀ key value, site.Persistent key → (key, value) ∈ pairs →
      ∃ leaf, (transaction.apply running.datastore).leaves[schema.instancePath leaf]? =
        some leaf ∧ StandsFor schema key value leaf ∧ Savable schema leaf)
    (stored : ∀ change ∈ transaction.changes, change.Stores →
      site.Persistent (schema.instancePath change.leaf) →
      (schema.instancePath change.leaf, change.leaf.text) ∈ pairs)
    (saves : handler.persist = running.handler.persist.setPairs pairs)
    (writes : handler.file = (handler.persist.write true running.handler.file).2 ∨
      pairs = [] ∧ handler.file = running.handler.file) :
    site.Tracks ⟨handler, transaction.apply running.datastore⟩ := by
  have matched : ∀ xpath, running.handler.persist.xpathMatchesPersist xpath ↔
      site.Persistent xpath := xpathMatchesPersist_iff tracks.paths
  have savable : ∀ xpath value,
      (running.handler.persist.setPairs pairs).mValues[xpath]? = some value →
      YangPersist.SafeEntry (xpath, value) ∧
        YangPersist.Restorable xpath.toList value.toList := by
    intro xpath value held
    rcases YangPersist.setPairs_eq_some held with ⟨persistent, saved⟩ | before
    · obtain ⟨leaf, -, ⟨rfl, path⟩, savable⟩ :=
        fromPair _ _ ((matched xpath).mp persistent) saved
      have one : xpath ∈ [leaf.path.text, schema.instancePath leaf] := by
        rcases path with instanceOf | ⟨node, -⟩
        · simp [instanceOf]
        · simp [node]
      exact ⟨savable.safe xpath one, savable.restorable xpath one⟩
    · exact tracks.savable xpath value before.1
  have persistent : ∀ xpath value,
      (running.handler.persist.setPairs pairs).mValues[xpath]? = some value →
      site.Persistent xpath := by
    intro xpath value held
    rcases YangPersist.setPairs_eq_some held with ⟨persistent, -⟩ | before
    · exact (matched xpath).mp persistent
    · exact tracks.persistent xpath value before.1
  have notDeleted : ∀ xpath, site.Persistent xpath → ∀ deleted,
      .deleted deleted ∈ transaction.changes → schema.instancePath deleted ≠ xpath := by
    rintro _ persistent deleted member rfl
    exact undeleted deleted member persistent
  have backed : ∀ xpath value,
      (running.handler.persist.setPairs pairs).mValues[xpath]? = some value →
      ∃ leaf, (transaction.apply running.datastore).leaves[schema.instancePath leaf]? =
        some leaf ∧ StandsFor schema xpath value leaf := by
    intro xpath value held
    rcases YangPersist.setPairs_eq_some held with ⟨persistent, saved⟩ | ⟨before, untouched⟩
    · obtain ⟨leaf, present, stands, -⟩ :=
        fromPair _ _ ((matched xpath).mp persistent) saved
      exact ⟨leaf, present, stands⟩
    · -- the value is an old one and was not overwritten: its leaf is still there
      obtain ⟨leaf, present, stands⟩ := tracks.backed xpath value before
      have here := tracks.persistent xpath value before
      have below : site.Persistent (schema.instancePath leaf) := by
        rcases stands.path with rfl | ⟨rfl, -⟩
        · exact here
        · exact persistent_instancePath here
      obtain ⟨other, presentAfter⟩ := Transaction.exists_apply_leaves present
        (notDeleted _ below)
      refine ⟨leaf, ?_, stands⟩
      rw [presentAfter, Option.some.injEq]
      have samePath := (transaction.apply running.datastore).keyed _ other presentAfter
      rcases Transaction.apply_leaves_eq_some presentAfter with kept | ⟨change, member, stores,
        rfl⟩
      · exact Option.some.inj (kept.symm.trans present)
      · have written := stored _ member stores (samePath ▸ below)
        rw [samePath] at written
        rcases stands.path with rfl | ⟨rfl, listed⟩
        · exact absurd written (untouched ((matched _).mpr here) _)
        · rw [instancePath_of_mem listed] at samePath
          by_cases listedAfter : change.leaf.path ∈ schema.leafLists
          · rw [instancePath_of_mem listedAfter] at samePath
            exact schema.unambiguous _ _ listedAfter listed samePath
          · rw [instancePath_of_notMem listedAfter] at samePath
            exact absurd samePath.symm (entryPath_ne_path leaf change.leaf.path)
  rw [← saves] at savable persistent backed
  refine ⟨?_, persistent, savable, backed, ?_, ?_, ?_⟩
  · rw [saves]
    exact (YangPersist.setPairs_paths _ pairs).trans tracks.paths
  · intro xpath leaf below held
    have here := (transaction.apply running.datastore).keyed xpath leaf held
    rw [saves]
    rcases Transaction.apply_leaves_eq_some held with before | ⟨change, member, stores, rfl⟩
    · rcases tracks.covered xpath leaf below before with installed | ⟨value, saved⟩
      · exact Or.inl installed
      · exact Or.inr (YangPersist.exists_setPairs_of_held pairs saved)
    · have written := stored _ member stores (here ▸ below)
      rw [here] at written
      exact Or.inr (YangPersist.exists_setPairs_of_mem ((matched xpath).mpr below) written)
  · intro xpath leaf below installed
    obtain ⟨other, present⟩ := tracks.kept xpath leaf below installed
    exact Transaction.exists_apply_leaves present (notDeleted xpath below)
  · rcases writes with written | ⟨rfl, left⟩
    · rw [written]
      refine read_write_of_savable savable fun clean => ?_
      rw [saves] at clean ⊢
      rcases YangPersist.setPairs_eq_or_dirty running.handler.persist pairs with same | dirty
      · rw [same]
        exact tracks.synced
      · rw [dirty] at clean
        contradiction
    · rw [left, saves]
      exact tracks.synced

/-- A commit that meets the condition keeps the saved map on track. -/
theorem tracks_commit (tracks : site.Tracks running) {transaction : Transaction schema}
    {throws : Option StdException} {readable opens : Bool}
    (recoverable : site.Recoverable running transaction throws readable opens) :
    site.Tracks (site.step running (.commit transaction throws readable opens)) := by
  by_cases touches : site.Touches running transaction
  · obtain ⟨derived, returned⟩ := recoverable.hooksReturn touches
    obtain rfl := recoverable.ends touches
    obtain rfl := recoverable.read touches
    obtain rfl := recoverable.opened touches
    have after := HandlerCallback.module_change_done_of_ok site.hooks
      ⟨(transaction.apply running.datastore).session true, true⟩
      ⟨transaction.reported, none⟩ site.subscribed rfl returned
    simp only [step, after]
    exact tracks.commit recoverable.notDeleted (standsFor_of_mem_pairs recoverable)
      (mem_pairs_of_stores recoverable) rfl (Or.inl rfl)
  · -- nothing persistent is stored: how far the event got does not matter
    have unmatched : ∀ pair ∈ transaction.reported.flatMap (HandlerCallback.changePairs
        ((transaction.apply running.datastore).session readable)),
        ¬ running.handler.persist.xpathMatchesPersist pair.1 := fun pair saved matched =>
      touches (touches_of_mem_pairs saved ((xpathMatchesPersist_iff tracks.paths pair.1).mp matched))
    obtain ⟨saves, writes⟩ := HandlerCallback.module_change_done_of_unmatched site.hooks
      ⟨(transaction.apply running.datastore).session readable, opens⟩
      ⟨transaction.reported, throws⟩ site.subscribed unmatched
    have unstored : ∀ change ∈ transaction.changes, change.Stores →
        ¬ site.Persistent (schema.instancePath change.leaf) := by
      intro change member stores persistent
      refine touches ⟨change, member, stores, (schema.instancePath change.leaf, change.leaf), ?_,
        rfl, persistent⟩
      rw [Std.ExtTreeMap.mem_toList_iff_getElem?_eq_some, Transaction.apply,
        Transaction.foldl_apply_of_mem transaction.once member, if_pos stores]
    refine Tracks.commit tracks recoverable.notDeleted
      (fun _ _ _ saved => absurd saved List.not_mem_nil)
      (fun change member stores persistent => (unstored change member stores persistent).elim)
      saves ?_
    rcases writes with left | written
    · exact Or.inr ⟨rfl, left⟩
    · cases opens with
      | true => exact Or.inl (written.trans (by rw [saves]))
      | false =>
          refine Or.inr ⟨rfl, written.trans ?_⟩
          cases dirty : running.handler.persist.mDirty <;> simp [YangPersist.write, dirty]

/-- A restart keeps the saved map on track. -/
theorem tracks_restart (tracks : site.Tracks running) (flushed : Bool) :
    site.Tracks (site.step running (.restart flushed)) := by
  have values := read_fileLeft tracks flushed
  have restores := restores_of_tracks tracks flushed
  have held : ∀ xpath value : String,
      (site.persistFrom (running.fileLeft flushed)).mValues[xpath]? = some value →
      running.handler.persist.mValues[xpath]? = some value := by
    intro xpath value saved
    rwa [values] at saved
  refine ⟨rfl, ?_, ?_, ?_, ?_, ?_, rfl⟩
  · exact fun xpath value saved => tracks.persistent xpath value (held xpath value saved)
  · exact fun xpath value saved => tracks.savable xpath value (held xpath value saved)
  · intro xpath value saved
    obtain ⟨leaf, present, stands⟩ := tracks.backed xpath value (held xpath value saved)
    have here := tracks.persistent xpath value (held xpath value saved)
    have below : site.Persistent (schema.instancePath leaf) := by
      rcases stands.path with rfl | ⟨rfl, -⟩
      · exact here
      · exact persistent_instancePath here
    exact ⟨leaf, (restores _ below).trans present, stands⟩
  · intro xpath leaf below present
    rcases tracks.covered xpath leaf below ((restores xpath below).symm.trans present) with
      installed | ⟨value, saved⟩
    · exact Or.inl installed
    · refine Or.inr ⟨value, ?_⟩
      have same : (site.step running (.restart flushed)).handler.persist.mValues =
          running.handler.persist.mValues := values
      rw [same, saved]
  · intro xpath leaf below installed
    obtain ⟨other, present⟩ := tracks.kept xpath leaf below installed
    exact ⟨other, (restores xpath below).trans present⟩

theorem tracks_step (running : Running σ schema) (input : SiteInput schema)
    (tracks : site.Tracks running) (guard : site.Guard running input) :
    site.Tracks (site.step running input) := by
  cases input with
  | commit transaction throws readable opens => exact tracks_commit tracks guard
  | restart flushed => exact tracks_restart tracks flushed

/-- In every state of a run whose commits are all recoverable, a restart finds
the persistent leaves as they are. -/
theorem restores_of_guarded (site : Site σ schema) (inputs reached : List (SiteInput schema))
    (guarded : Guarded site.Guard site.step (site.boot none) inputs)
    (prior : reached <+: inputs) :
    site.Restores (reached.foldl site.step (site.boot none)) :=
  restores_of_tracks (guarded.invariant_of_prefix tracks_step tracks_boot prior)

/-- A module with one leaf and one leaf-list under a persistent path, and a
handler without hooks of its own. -/
def infoSchema : Schema where
  leafLists := [⟨"/m:info/vlans", by decide⟩]
  typed _ text := .string text
  unambiguous := by
    intro leaf other listed otherListed same
    have path := List.mem_singleton.mp listed
    have otherPath := List.mem_singleton.mp otherListed
    have samePath : leaf.path = other.path := path.trans otherPath.symm
    have text : leaf.text = other.text := by
      have letters := congrArg String.toList same
      simp only [Leaf.entryPath, samePath, String.toList_append] at letters
      exact String.toList_inj.mp (by simpa using letters)
    cases leaf
    cases other
    simp_all

theorem infoName_oneLine : '\n' ∉ "m".toList := by decide

def infoSite : Site Unit infoSchema where
  name := ⟨"m", infoName_oneLine⟩
  hooks := ⟨fun _ _ _ => pure (), fun _ _ => pure (), fun _ _ => pure .ok⟩
  fresh := ()
  subscribed := none
  readOnlyPaths := []
  persistPaths := ["/m:info/"]
  installed := ⟨∅, by simp⟩

def infoName (text : String) : Leaf := ⟨⟨"/m:info/name", by decide⟩, text⟩

def infoVlan (text : String) : Leaf := ⟨⟨"/m:info/vlans", by decide⟩, text⟩

/-- One change, committed to the end. -/
def infoCommit (change : LeafChange) : SiteInput infoSchema :=
  .commit ⟨[change], by simp⟩ none true true

def infoMtu : Leaf := ⟨⟨"/m:mtu", by decide⟩, "1500"⟩

/-- The event of the leaf that is not persistent breaks off, with the datastore and
the file out of reach. -/
def infoRun : List (SiteInput infoSchema) :=
  [infoCommit (.created (infoVlan "4")), infoCommit (.created (infoVlan "1")),
    infoCommit (.created (infoName "a")), infoCommit (.modified "a" (infoName "b")),
    .commit ⟨[.created infoMtu], by simp⟩ (some .sysrepo) false false, .restart true]

theorem restores_of_guarded_infoRun :
    infoSite.Restores (infoRun.foldl infoSite.step (infoSite.boot none)) := by
  refine restores_of_guarded infoSite infoRun infoRun ?_ (List.prefix_refl _)
  have untouched : ¬ infoSite.Touches ((infoRun.take 4).foldl infoSite.step (infoSite.boot none))
      ⟨[.created infoMtu], by simp⟩ := by decide +kernel
  refine ⟨?_, ?_, ?_, ?_, ?_, trivial, trivial⟩
  case refine_5 =>
    exact ⟨fun touches => absurd touches untouched, fun touches => absurd touches untouched,
      fun touches => absurd touches untouched, fun touches => absurd touches untouched,
      by rintro leaf member; simp at member, by decide +kernel⟩
  all_goals
    exact ⟨fun _ => ⟨(), rfl⟩, fun _ => rfl, fun _ => rfl, fun _ => rfl,
      by rintro leaf member; simp at member, by decide +kernel⟩

/-- A leaf that was created and then deleted comes back. -/
theorem deleted_leaf_comes_back :
    ¬ infoSite.Restores ([infoCommit (.created (infoName "a")),
      infoCommit (.deleted (infoName "a"))].foldl infoSite.step (infoSite.boot none)) := by
  intro restores
  have back := restores false "/m:info/name" (by decide +kernel)
  revert back
  decide +kernel

end Runs

end Site

end OpenMplane
