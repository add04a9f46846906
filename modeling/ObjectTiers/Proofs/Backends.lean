/-
The kind of a tier makes no difference.

Calls given to clusters with new tiers, whatever their kinds, get the same results up to the times
of rows (`Cluster.Reaches.results_eq`). For clusters stay matched: as far as a store can tell, their
tiers hold the same, fail at the same and take the same rows (`Tiers.Match`), and a call gets the
same result from both and leaves them so (`Step.matches_next`).

What a tier takes in must have a place there, and a row that is written must have a record
(`Step.Fits`); in a full tier, what stays depends on its kind, and only a directory writes records.
-/
import ObjectTiers.Proofs.Footprint
import ObjectTiers.Proofs.Gate

namespace ObjectTiers

/-! ### Tiers that match -/

/-- Tiers of any kinds that hold the same, up to the times of rows, fail at the same, and take the
same of the rows that have a record. -/
structure Tiers.Match (t u : Tiers) : Prop where
  memory : ∀ j, u.memory.cells.get? j = t.memory.cells.get? j
  cache : ∀ j, u.cache.peek j = t.cache.peek j
  cacheFails : u.cache.fails = t.cache.fails
  table : ∀ r v key, Identity.validate r v = .ok key → u.table.view r v = t.table.view r v
  tableFails : u.table.fails = t.table.fails
  takes : ∀ row, row.encode?.isSome = true → (u.table.insert row).1 = (t.table.insert row).1

namespace Tiers.Match

variable {t u w : Tiers} {key : Key} {calls calls' : List Call}

theorem symm (h : t.Match u) : u.Match t where
  memory j := (h.memory j).symm
  cache j := (h.cache j).symm
  cacheFails := h.cacheFails.symm
  table r v key hkey := (h.table r v key hkey).symm
  tableFails := h.tableFails.symm
  takes row hrow := (h.takes row hrow).symm

theorem trans (h : t.Match u) (h' : u.Match w) : t.Match w where
  memory j := (h'.memory j).trans (h.memory j)
  cache j := (h'.cache j).trans (h.cache j)
  cacheFails := h'.cacheFails.trans h.cacheFails
  table r v key hkey := (h'.table r v key hkey).trans (h.table r v key hkey)
  tableFails := h'.tableFails.trans h.tableFails
  takes row hrow := (h'.takes row hrow).trans (h.takes row hrow)

theorem settle (h : t.Match u) : t.settle.Match u.settle where
  memory := h.memory
  cache j := by
    simp only [Tiers.settle, Cache.peek_settle]
    exact h.cache j
  cacheFails := by
    simp only [Tiers.settle, Cache.fails_settle]
    exact h.cacheFails
  table := h.table
  tableFails := h.tableFails
  takes := h.takes

theorem alikeAt (h : t.Match u) (hkey : Identity.validate key.objectRef key.version = .ok key) :
    Store.AlikeAt key t u :=
  ⟨h.memory key.text, h.cache key.text, h.cacheFails, h.table _ _ key hkey, h.tableFails⟩

/-- The same calls, up to their times, keep tiers matched. -/
theorem after (h : t.Match u) (hcalls : calls'.map (·.dated 0) = calls.map (·.dated 0))
    (hmemory : ∀ x, .memoryInsert x ∈ calls → t.memory.HasPlaces {key.text})
    (hcache : ∀ b ttl, .cacheSet b ttl ∈ calls → t.cache.HasPlaces {key.text})
    (hmemory' : ∀ x, .memoryInsert x ∈ calls' → u.memory.HasPlaces {key.text})
    (hcache' : ∀ b ttl, .cacheSet b ttl ∈ calls' → u.cache.HasPlaces {key.text})
    (hrow : ∀ p now, .tableInsert p now ∈ calls → (key.row p now).encode?.isSome = true) :
    (t.after key calls).Match (u.after key calls') where
  memory j := by
    have hself := Finset.mem_singleton_self key.text
    simp only [Tiers.after, Call.get?_onMemory_foldl hmemory hself,
      Call.get?_onMemory_foldl hmemory' hself, Call.foldl_cell_of_dated hcalls, h.memory]
  cache j := by
    have hself := Finset.mem_singleton_self key.text
    simp only [Tiers.after, Call.peek_onCache_foldl hcache hself,
      Call.peek_onCache_foldl hcache' hself, Call.foldl_bytes_of_dated hcalls, h.cache,
      h.cacheFails]
  cacheFails := by
    simp only [Tiers.after, Call.fails_onCache_foldl, h.cacheFails]
  table r v key' hkey := by
    simp only [Tiers.after]
    by_cases hid : r = key.objectRef ∧ v = key.version
    · obtain ⟨rfl, rfl⟩ := hid
      have htakes (p : Payload) (now : Int64) (hp : .tableInsert p now ∈ calls) :
          (u.table.insert (key.row p 0)).1.isOk = (t.table.insert (key.row p 0)).1.isOk := by
        have hrecord := (key.row p now).isSome_encode?_dated 0
        rw [hrow p now hp] at hrecord
        exact congrArg Except.isOk (h.takes _ hrecord)
      rw [Call.view_onTable_foldl, Call.view_onTable_foldl, Call.foldl_view_of_dated hcalls,
        h.table _ _ key' hkey]
      exact Call.foldl_view_congr htakes _
    · rw [Table.view, Table.view, Call.peek_onTable_foldl_of_ne _ hid,
        Call.peek_onTable_foldl_of_ne _ hid]
      exact h.table r v key' hkey
  tableFails := by
    simp only [Tiers.after, Call.fails_onTable_foldl, h.tableFails]
  takes row hrecord := by
    simp only [Tiers.after, Call.insert_onTable_foldl_fst]
    exact h.takes row hrecord

end Tiers.Match

/-! ### Calls -/

/-- The tiers of all sites match. -/
def Cluster.Matches (c c' : Cluster) : Prop := ∀ site, (c.tiers site).Match (c'.tiers site)

theorem Cluster.Matches.withTiers {c c' : Cluster} {t u : Tiers} (h : c.Matches c')
    (ht : t.Match u) (site : Site) : (c.withTiers site t).Matches (c'.withTiers site u) := by
  intro other
  have hother := h other
  constructor
  · intro j
    simp only [tiers, memories_withTiers]
    split
    · exact ht.memory j
    · exact hother.memory j
  · intro j
    simp only [tiers, caches_withTiers]
    split
    · exact ht.cache j
    · exact hother.cache j
  · simp only [tiers, caches_withTiers]
    split
    · exact ht.cacheFails
    · exact hother.cacheFails
  · intro r v key hkey
    simp only [tiers, tables_withTiers]
    split
    · exact ht.table r v key hkey
    · exact hother.table r v key hkey
  · simp only [tiers, tables_withTiers]
    split
    · exact ht.tableFails
    · exact hother.tableFails
  · intro row hrow
    simp only [tiers, tables_withTiers]
    split
    · exact ht.takes row hrow
    · exact hother.takes row hrow

namespace Step

variable {st st' : Step} {key : Key}

/-- What a step was asked for, but for the time. -/
def call (st : Step) : Site × Command := (st.site, st.command.dated 0)

/-- The result of a step, but for the time of a row. -/
def outcome (st : Step) : Except StoreError Reply := st.result.map (·.dated 0)

/-- The tiers have a place for what a step puts into them, and the row that it offers has a
record. -/
structure Fits (st : Step) : Prop where
  memory : ∀ key x, st.command.key? = some key → .memoryInsert x ∈ st.calls key →
    st.tiers.memory.HasPlaces {key.text}
  cache : ∀ key b ttl, st.command.key? = some key → .cacheSet b ttl ∈ st.calls key →
    st.tiers.cache.HasPlaces {key.text}
  row : ∀ row, st.site.store.offer? st.command = some row → row.encode?.isSome = true

theorem Fits.of_hasPlaces (hkey : st.command.key? = some key)
    (hplaces : st.tiers.HasPlaces {key.text})
    (hrow : ∀ row, st.site.store.offer? st.command = some row → row.encode?.isSome = true) :
    st.Fits where
  memory key' _ hkey' _ := by
    cases hkey.symm.trans hkey'
    exact hplaces.memory
  cache key' _ _ hkey' _ := by
    cases hkey.symm.trans hkey'
    exact hplaces.cache
  row := hrow

theorem eq_of_invalid {r : String} {v : UInt16} {e : ValidationError}
    (hid : st.command.identity? = some (r, v)) (hkey : Identity.validate r v = .error e) :
    st.result = .error (.validation e) ∧ st.next = st.found.withTiers st.site st.tiers.settle := by
  simp only [result, next, Cluster.perform, Store.perform_of_invalid hid hkey, tiers, and_self]

theorem eq_of_clearMemory (h : st.command = .clearMemory) : st.result = .ok .done ∧ st.next =
    st.found.withTiers st.site { st.tiers with memory := st.tiers.memory.clear }.settle := by
  obtain ⟨t, ht, hnext⟩ := st.cases
  rw [hnext]
  rw [h] at ht
  generalize st.result = res at ht
  cases ht
  exact ⟨rfl, rfl⟩

/-- Clusters that match give a call the same result, and match afterwards. -/
theorem matches_next (h : st.found.Matches st'.found) (hcall : st'.call = st.call)
    (hfits : st.Fits) (hfits' : st'.Fits) :
    st'.outcome = st.outcome ∧ st.next.Matches st'.next := by
  obtain ⟨hsite, hdated⟩ := Prod.mk.inj hcall
  have htiers : st.tiers.Match st'.tiers := by
    rw [tiers, tiers, hsite]
    exact h st.site
  cases hkey : st.command.key? with
  | some key =>
    have hkey' : st'.command.key? = some key := (Command.key?_of_dated hdated).trans hkey
    obtain ⟨hres, hnext⟩ := eq_plan hkey
    obtain ⟨hres', hnext'⟩ := eq_plan hkey'
    obtain ⟨n, hn⟩ := Command.exists_eq_dated hdated
    have halike := htiers.alikeAt (Command.key?_eq_some hkey).2
    obtain ⟨hresults, hcalls⟩ := Store.plan_dated hkey halike
      (fun row hrow => htiers.takes row (hfits.row row hrow)) n
    rw [← hn, ← hsite] at hresults hcalls
    refine ⟨?_, ?_⟩
    · rw [outcome, outcome, hres, hres', hresults, hsite]
    · rw [hnext, hnext', hsite]
      refine h.withTiers (Tiers.Match.settle (htiers.after ?_ ?_ ?_ ?_ ?_ ?_)) st.site
      · rw [calls, calls, hcalls, hsite]
      · exact fun x => hfits.memory key x hkey
      · exact fun b ttl => hfits.cache key b ttl hkey
      · exact fun x => hfits'.memory key x hkey'
      · exact fun b ttl => hfits'.cache key b ttl hkey'
      · exact fun p now hp => hfits.row _ (Store.offer?_of_mem_plan hkey hp)
  | none =>
    cases hid : st.command.identity? with
    | some id =>
      obtain ⟨e, he⟩ := Command.exists_error_of_key? hkey hid
      have hid' : st'.command.identity? = some id :=
        (Command.identity?_of_dated hdated).trans hid
      obtain ⟨hres, hnext⟩ := eq_of_invalid hid he
      obtain ⟨hres', hnext'⟩ := eq_of_invalid hid' he
      refine ⟨?_, ?_⟩
      · rw [outcome, outcome, hres, hres']
      · rw [hnext, hnext', hsite]
        exact h.withTiers htiers.settle st.site
    | none =>
      have hclear : st.command = .clearMemory := Command.eq_clearMemory_iff.mpr hid
      have hclear' : st'.command = .clearMemory :=
        Command.eq_clearMemory_iff.mpr ((Command.identity?_of_dated hdated).trans hid)
      obtain ⟨hres, hnext⟩ := eq_of_clearMemory hclear
      obtain ⟨hres', hnext'⟩ := eq_of_clearMemory hclear'
      refine ⟨?_, ?_⟩
      · rw [outcome, outcome, hres, hres']
      · rw [hnext, hnext', hsite]
        refine h.withTiers (Tiers.Match.settle ?_) st.site
        exact { htiers with memory := fun _ => rfl }

end Step

/-! ### Tiers to start with -/

/-- A table of any kind without rows that does not fail. -/
inductive Table.IsNew : Table → Prop
  | memory : IsNew (.memory .empty)
  | trial (findCalls insertCalls : Nat) : IsNew (.trial ⟨.empty, findCalls, insertCalls, false⟩)
  | directory : IsNew (.directory .empty)

namespace Table.IsNew

variable {t : Table}

theorem view_eq (h : t.IsNew) {r : String} {v : UInt16} {key : Key}
    (hkey : Identity.validate r v = .ok key) : t.view r v = .ok none := by
  cases h with
  | memory => rfl
  | trial => rfl
  | directory =>
    have hfind : (Directory.empty.find r v).1 = .ok none := by
      simp only [Directory.find, Directory.rowPath, hkey, Directory.read, Directory.isBlocked_pair]
      rfl
    simp only [view, peek, hfind]
    rfl

theorem fails_eq (h : t.IsNew) : t.fails = false := by
  cases h <;> rfl

/-- A row with a record is taken if it passes the check. -/
theorem insert_fst (h : t.IsNew) {row : Row} (hrow : row.encode?.isSome = true) :
    (t.insert row).1 = row.check.mapError .invariant := by
  have hmemory : (MemoryTable.empty.insert row).1 = row.check.mapError .invariant := by
    unfold MemoryTable.insert
    cases row.check <;> rfl
  cases h with
  | memory => exact hmemory
  | trial => exact hmemory
  | directory =>
    have hrecord : row.encode?.isNone = false := by rw [← Option.not_isSome, hrow]; rfl
    rw [Table.insert, Directory.insert_fst, hrecord]
    cases row.check <;> rfl

end Table.IsNew

namespace Cluster

/-- Tiers of any kinds that hold nothing and do not fail. -/
structure IsNew (c : Cluster) : Prop where
  memories : ∀ i key, (c.memories i).cells.get? key = none
  caches : ∀ i key, (c.caches i).peek key = none
  cacheFails : ∀ i op, (c.caches i).fails op = false
  tables : ∀ i, (c.tables i).IsNew

/-- Time passes, and no entry of a cache expires. -/
structure Waits (c c' : Cluster) : Prop where
  memories : ∀ i, c'.memories i = c.memories i
  caches : ∀ i, (c'.caches i).peek = (c.caches i).peek ∧ (c'.caches i).fails = (c.caches i).fails
  tables : ∀ i, c'.tables i = c.tables i

variable {start start' c c' : Cluster} {log log' : List Step}

theorem IsNew.matches (h : c.IsNew) (h' : c'.IsNew) : c.Matches c' := fun site => {
  memory := fun j => (h'.memories site.memory j).trans (h.memories site.memory j).symm
  cache := fun j => (h'.caches site.cache j).trans (h.caches site.cache j).symm
  cacheFails := funext fun op =>
    (h'.cacheFails site.cache op).trans (h.cacheFails site.cache op).symm
  table := fun _ _ _ hkey =>
    ((h'.tables site.table).view_eq hkey).trans ((h.tables site.table).view_eq hkey).symm
  tableFails := (h'.tables site.table).fails_eq.trans (h.tables site.table).fails_eq.symm
  takes := fun _ hrow =>
    ((h'.tables site.table).insert_fst hrow).trans ((h.tables site.table).insert_fst hrow).symm }

theorem Waits.matches (h : c.Waits c') : c.Matches c' := fun site => {
  memory := fun j => by rw [tiers, tiers, h.memories]
  cache := fun j => congrFun (h.caches site.cache).1 j
  cacheFails := (h.caches site.cache).2
  table := fun r v key _ => by rw [tiers, tiers, h.tables]
  tableFails := by rw [tiers, tiers, h.tables]
  takes := fun row _ => by rw [tiers, tiers, h.tables] }

/-! ### Runs -/

/-- Where a run comes to after its last call, if the time after it makes no difference. -/
theorem Reaches.of_last {I : Cluster → Prop} (h : Reaches Waits start log c)
    (hlast : I ((log.getLast?.map Step.next).getD start))
    (hwaits : ∀ c c', Waits c c' → I c → I c') : I c := by
  induction h with
  | start => exact hlast
  | call h site command =>
    rw [List.getLast?_concat] at hlast
    exact hlast
  | outside h hc ih => exact hwaits _ _ hc (ih hlast)

/-- Two runs of the same calls from clusters that match get the same results, and stay matched. -/
theorem Reaches.matches (hstart : start.Matches start') (h : Reaches Waits start log c)
    (h' : Reaches Waits start' log' c') (hcalls : log'.map Step.call = log.map Step.call)
    (hfits : ∀ st ∈ log, st.Fits) (hfits' : ∀ st ∈ log', st.Fits) :
    log'.map Step.outcome = log.map Step.outcome ∧ c.Matches c' := by
  have hright (c c' c'' : Cluster) (hc : Waits c' c'') (h : c.Matches c') : c.Matches c'' :=
    fun site => (h site).trans (hc.matches site)
  induction h generalizing log' c' with
  | start =>
    obtain rfl : log' = [] := List.map_eq_nil_iff.mp hcalls
    exact ⟨rfl, h'.of_last (I := start.Matches) hstart (hright start)⟩
  | outside h hc ih =>
    obtain ⟨houtcomes, hmatches⟩ := ih h' hcalls hfits hfits'
    exact ⟨houtcomes, fun site => ((hc.matches site).symm).trans (hmatches site)⟩
  | @call log found h site command ih =>
    rw [List.map_append] at hcalls
    obtain ⟨before, last, rfl, hbefore, hlast⟩ := List.map_eq_append_iff.mp hcalls
    obtain ⟨st', rfl, hcall⟩ := List.map_eq_singleton_iff.mp hlast
    have hmem (st : Step) (hst : st ∈ log) : st ∈ log ++ [⟨site, command, found⟩] :=
      List.mem_append_left _ hst
    have hmem' (st : Step) (hst : st ∈ before) : st ∈ before ++ [st'] :=
      List.mem_append_left _ hst
    obtain ⟨houtcomes, hfound⟩ := ih (h'.found rfl) hbefore (fun st hst => hfits st (hmem st hst))
      fun st hst => hfits' st (hmem' st hst)
    obtain ⟨houtcome, hnext⟩ := Step.matches_next hfound hcall
      (hfits _ (List.mem_append_right _ List.mem_cons_self))
      (hfits' _ (List.mem_append_right _ List.mem_cons_self))
    refine ⟨?_, h'.of_last ?_ (hright _)⟩
    · rw [List.map_append, List.map_append, houtcomes, List.map_singleton, List.map_singleton,
        houtcome]
    · rw [List.getLast?_concat]
      exact hnext

/-- **The results of a run do not depend on the kinds of its tiers.** -/
theorem Reaches.results_eq (hstart : start.IsNew) (hstart' : start'.IsNew)
    (h : Reaches Waits start log c) (h' : Reaches Waits start' log' c')
    (hcalls : log'.map Step.call = log.map Step.call)
    (hfits : ∀ st ∈ log, st.Fits) (hfits' : ∀ st ∈ log', st.Fits) :
    log'.map Step.outcome = log.map Step.outcome :=
  (h.matches (hstart.matches hstart') h' hcalls hfits hfits').1

/-- The site with empty tiers of other kinds. -/
def trialOnDisk : Cluster :=
  { trial with caches := fun _ => .memory (.ofCapacity 4), tables := fun _ => .directory .empty }

/-- A write and a read, over a table in the memory with a cache that counts, and later over a
directory with a cache that keeps a clock. -/
theorem results_eq_trial : ∃ put read put' read', put = trialPut trialItem trial ∧
    read = trialRead trialItem put.next ∧
    put' = ⟨trialSite, .put trialItem (some trialSecret) (List.replicate 12 1) 5, trialOnDisk⟩ ∧
    read' = trialRead trialItem put'.next ∧
    [put, read].map (fun st => st.result.isOk) = [true, true] ∧
    [put', read'].map Step.outcome = [put, read].map Step.outcome := by
  obtain ⟨put, hput⟩ : ∃ put, put = trialPut trialItem trial := ⟨_, rfl⟩
  obtain ⟨read, hread⟩ : ∃ read, read = trialRead trialItem put.next := ⟨_, rfl⟩
  obtain ⟨put', hput'⟩ : ∃ put' : Step, put' =
    ⟨trialSite, .put trialItem (some trialSecret) (List.replicate 12 1) 5, trialOnDisk⟩ := ⟨_, rfl⟩
  obtain ⟨read', hread'⟩ : ∃ read', read' = trialRead trialItem put'.next := ⟨_, rfl⟩
  have hnew : trial.IsNew :=
    ⟨fun _ _ => rfl, fun _ _ => rfl, fun _ op => by cases op <;> rfl, fun _ => .memory⟩
  have hnew' : trialOnDisk.IsNew :=
    ⟨fun _ _ => rfl, fun _ _ => rfl, fun _ _ => rfl, fun _ => .directory⟩
  have hwrite (now : Int64) : Command.key?
      (.put trialItem (some trialSecret) (List.replicate 12 1) now) = some ⟨"a", 1⟩ :=
    (Command.key?_dated (.put trialItem (some trialSecret) (List.replicate 12 1) 0) now).trans
      (by decide +kernel)
  have hask : Command.key? (.fetch .creds "a" 1 ⟨none, some trialSecret⟩) = some ⟨"a", 1⟩ := by
    decide +kernel
  have hplaces : (trial.tiers trialSite).HasPlaces {(Key.mk "a" 1).text} :=
    ⟨.of_card_le (by decide), trivial⟩
  have hplaces' : (trialOnDisk.tiers trialSite).HasPlaces {(Key.mk "a" 1).text} :=
    ⟨.of_card_le (by decide), .of_card_le (by decide)⟩
  have hrecord (now : Int64) (hnow : now = 0 ∨ now = 5) : ∀ row, trialSite.store.offer?
      (.put trialItem (some trialSecret) (List.replicate 12 1) now) = some row →
      row.encode?.isSome = true := by
    have hall : (trialSite.store.offer?
        (.put trialItem (some trialSecret) (List.replicate 12 1) now)).all
        (fun row => row.encode?.isSome) = true := by
      rcases hnow with rfl | rfl <;> decide +kernel
    exact (Option.all_eq_true _ _).mp hall
  have hput₁ : put.Fits := by
    rw [hput]
    exact .of_hasPlaces (hwrite 0) hplaces (hrecord 0 (.inl rfl))
  have hput₂ : put'.Fits := by
    rw [hput']
    exact .of_hasPlaces (hwrite 5) hplaces' (hrecord 5 (.inr rfl))
  have hread₁ : read.Fits := by
    rw [hread, hput]
    exact .of_hasPlaces hask (Step.hasPlaces_next (hwrite 0) (by simp) hplaces) nofun
  have hread₂ : read'.Fits := by
    rw [hread', hput']
    exact .of_hasPlaces hask (Step.hasPlaces_next (hwrite 5) (by simp) hplaces') nofun
  have hlog : Reaches Waits trial [put, read] read.next :=
    (Reaches.start.step (by rw [hput]; rfl)).step (by rw [hread]; rfl)
  have hlog' : Reaches Waits trialOnDisk [put', read'] read'.next :=
    (Reaches.start.step (by rw [hput'])).step (by rw [hread']; rfl)
  have hcalls : [put', read'].map Step.call = [put, read].map Step.call := by
    have hputs : put'.call = put.call := by rw [hput', hput]; rfl
    have hreads : read'.call = read.call := by rw [hread', hread]; rfl
    rw [List.map_cons, List.map_singleton, hputs, hreads]
    rfl
  refine ⟨put, read, put', read', hput, hread, hput', hread', ?_, ?_⟩
  · rw [hread, hput]
    decide +kernel
  · exact hlog.results_eq hnew hnew' hlog' hcalls (by simp [hput₁, hread₁])
      (by simp [hput₂, hread₂])

end Cluster

end ObjectTiers
