/-
Rows and entries stay well-formed.

In tiers that only the stores write to, and anyone who offers rows to a table in the proper way,
every row passes its check, and every sealed entry has a key id with text in it and holds an
envelope: a row is checked before it is taken, and an entry is made of a row. So no read of a run
ends in an envelope that is corrupt, whatever the ciphers do and whatever the tiers fail at
(`Cluster.Reaches.wellFormed`).
-/
import ObjectTiers.Proofs.Admission
import ObjectTiers.Proofs.Causes

namespace ObjectTiers

/-! ### Rows -/

theorem Row.check_eq_ok_iff (row : Row) : row.check = .ok () ↔
    (∃ key, Identity.validate row.objectRef row.version = .ok key) ∧
      ∀ keyId, row.keyId = some keyId →
        keyId ≠ "" ∧ ∃ parts, Envelope.parse row.payload = .ok parts := by
  unfold check
  cases Identity.validate row.objectRef row.version with
  | error e => simp
  | ok key =>
  cases row.keyId with
  | none => simp
  | some keyId =>
    by_cases hempty : keyId = ""
    · simp [hempty]
    · cases Envelope.parse row.payload <;> simp [hempty]

theorem Table.check_of_insert {t t' : Table} {row : Row} (h : t.insert row = (.ok (), t')) :
    row.check = .ok () := by
  have hres := congrArg Prod.fst h
  have hmemory {m : MemoryTable} (h : (m.insert row).1 = .ok ()) : row.check = .ok () := by
    unfold MemoryTable.insert at h
    split at h
    · cases h
    · next hcheck => exact hcheck
  cases t with
  | memory m => exact hmemory hres
  | trial t => exact hmemory hres
  | directory d =>
    have hres : (d.insert row).1 = .ok () := hres
    rw [Directory.insert_fst] at hres
    split at hres
    · cases hres
    · next hcheck => exact hcheck

/-! ### Envelopes -/

theorem Payload.readFrame_ne_corrupt {k : Kind} {b : Bytes} {fault : EnvelopeFault} :
    readFrame k b ≠ .error (.corrupt fault) := by
  intro h
  unfold readFrame at h
  split at h
  · cases h
  split at h
  · cases h
  split at h
  · cases h
  split at h <;> cases h

/-- What is found corrupt is no envelope: nothing behind its parts is ever blamed on them. -/
theorem Payload.parse_of_corrupt {c : Cipher} {k : Kind} {s : Secret} {r : String} {v : UInt16}
    {b : Bytes} {fault : EnvelopeFault} (h : decodeSealed c k s r v b = .error (.corrupt fault)) :
    Envelope.parse b = .error (.corrupt fault) := by
  unfold decodeSealed at h
  split at h
  · next hparse => cases h; exact hparse
  split at h
  · cases h
  · exact absurd h readFrame_ne_corrupt

/-! ### Tiers -/

/-- Whether all rows of a table pass their check. -/
def Table.WellFormed (t : Table) : Prop :=
  ∀ r v row, t.peek r v = .ok (some row) → row.check = .ok ()

/-- Whether all sealed entries of a cache hold an envelope under a key id with text in it. -/
def Cache.WellFormed (c : Cache) : Prop :=
  ∀ j b e keyId envelope, c.peek j = some b → Entry.ofBytes? b = some e →
    e.payload = .sealed keyId envelope →
      keyId ≠ "" ∧ ∃ parts, Envelope.parse envelope = .ok parts

theorem Table.WellFormed.insert {t : Table} (h : t.WellFormed) (row : Row) :
    (t.insert row).2.WellFormed := by
  intro r v row' hrow
  cases hins : t.insert row with
  | mk res t' =>
  rw [hins] at hrow
  cases res with
  | error e =>
    rw [Table.peek_insert_error hins] at hrow
    exact h r v row' hrow
  | ok u =>
    rw [Table.peek_insert_ok hins] at hrow
    split at hrow
    · cases hrow
      exact Table.check_of_insert hins
    · exact h r v row' hrow

namespace Store

variable {s : Store} {k : Kind} {key : Key} {secret : Option Secret} {t t' : Tiers} {r : String}
  {v : UInt16} {o : ReadOptions}

theorem InReach.parse {keyId : String} {envelope : Bytes} (h : InReach key t keyId envelope)
    (htable : t.table.WellFormed) (hcache : t.cache.WellFormed) :
    ∃ parts, Envelope.parse envelope = .ok parts := by
  cases h with
  | entry hb he hp => exact (hcache _ _ _ _ _ hb he hp).2
  | @row row keyId hrow hid =>
    exact ((row.check_eq_ok_iff.mp (htable _ _ _ hrow)).2 keyId hid).2

/-- No read meets a corrupt envelope in well-formed tiers. -/
theorem Fetches.ne_corrupt {res : Except StoreError Fetched} (h : Fetches s k r v o t res t')
    (htable : t.table.WellFormed) (hcache : t.cache.WellFormed) (fault : EnvelopeFault) :
    res ≠ .error (.envelope (.corrupt fault)) := by
  rintro rfl
  cases hkey : Identity.validate r v with
  | error e => cases (h.of_invalid hkey).1
  | ok key =>
    have hcause := h.causes hkey
    cases hcause with
    | secret h =>
      unfold resolveSecret at h
      split at h
      · cases h
      split at h
      · cases h
      split at h <;> cases h
    | envelope hreach h =>
      obtain ⟨parts, hparts⟩ := hreach.parse htable hcache
      cases hparts.symm.trans (Payload.parse_of_corrupt h)
    | frame h => exact Payload.readFrame_ne_corrupt h

theorem Performs.wellFormed_table {cmd : Command} {res : Except StoreError Reply}
    (h : Performs s t cmd res t') (htable : t.table.WellFormed) : t'.table.WellFormed := by
  rcases h.table_cases with heq | ⟨r, v, heq⟩ | ⟨row, heq⟩
  · rwa [heq]
  · intro r v row hrow
    rw [heq, Table.peek_find] at hrow
    exact htable r v row hrow
  · rw [heq]
    exact htable.insert row

/-- An entry that a read leaves in the cache stood there before, or is made of a row. -/
theorem Fetches.wellFormed_cache {res : Except StoreError Fetched} (h : Fetches s k r v o t res t')
    (htable : t.table.WellFormed) (hcache : t.cache.WellFormed) : t'.cache.WellFormed := by
  intro j b e keyId envelope hb he hp
  rcases h.peek_cases hb with hb | ⟨row, x, p, -, -, -, hrow, -, hcached, hencode⟩
  · exact hcache _ _ _ _ _ hb he hp
  · cases he.symm.trans (Entry.ofBytes?_of_encode? hencode)
    cases hp
    cases hcached with
    | «sealed» hkind hid =>
      have hcheck := htable _ _ _ (Table.peek_of_find hrow)
      exact (row.check_eq_ok_iff.mp hcheck).2 keyId hid

end Store

/-! ### Runs -/

namespace Cluster

/-- Between commands tiers may fade, and a row may be offered to a table. -/
inductive Offers (c : Cluster) : Cluster → Prop
  | fades {c' : Cluster} (h : Fades c c') : Offers c c'
  | row (i : Nat) (row : Row) :
    Offers c { c with tables := replaceAt c.tables i ((c.tables i).insert row).2 }

/-- Whether all tables and all caches are well-formed. -/
structure WellFormed (c : Cluster) : Prop where
  tables : ∀ i, (c.tables i).WellFormed
  caches : ∀ i, (c.caches i).WellFormed

variable {start c c' : Cluster} {log : List Step} {st : Step}

theorem WellFormed.offers (h : c.WellFormed) (hc : Offers c c') : c'.WellFormed := by
  cases hc with
  | fades hfades =>
    exact ⟨fun i r v row hrow => h.tables i r v row (hfades.tables i r v row hrow),
      fun i j b e keyId envelope hb => h.caches i j b e keyId envelope (hfades.caches i j b hb)⟩
  | row i row =>
    refine ⟨fun j => ?_, h.caches⟩
    simp only [replaceAt]
    split
    · exact (h.tables i).insert row
    · exact h.tables j

theorem WellFormed.next (h : st.found.WellFormed) : st.next.WellFormed := by
  constructor
  · intro i
    obtain ⟨t, ht, hnext⟩ := st.cases
    rw [hnext, tables_withTiers]
    split
    · exact ht.wellFormed_table (h.tables st.site.table)
    · exact h.tables i
  · intro i j b e keyId envelope hb he hp
    cases hcmd : st.command.request? with
    | none =>
      obtain ⟨t, ht, hnext⟩ := st.cases
      rw [hnext, caches_withTiers] at hb
      split at hb
      · simp only [Tiers.settle, Cache.peek_settle] at hb
        exact h.caches _ _ _ _ _ _ (ht.peek_of_write hcmd hb) he hp
      · exact h.caches _ _ _ _ _ _ hb he hp
    | some q =>
      obtain ⟨t, ht, hnext⟩ := Step.request_cases hcmd
      rw [hnext, caches_withTiers] at hb
      split at hb
      · simp only [Tiers.settle, Cache.peek_settle] at hb
        have hkept := ht.wellFormed_cache (h.tables st.site.table) (h.caches st.site.cache)
        exact hkept _ _ _ _ _ hb he hp
      · exact h.caches _ _ _ _ _ _ hb he hp

/-- From tables without rows and caches without entries, every run of commands at any sites, with
rows offered in between and tiers that fade and fail, keeps all rows and entries well-formed, and
no read in it finds an envelope corrupt. -/
theorem Reaches.wellFormed (hruns : Reaches Offers start log c)
    (hcaches : ∀ i key, (start.caches i).peek key = none)
    (htables : ∀ i r v row, (start.tables i).peek r v ≠ .ok (some row)) :
    c.WellFormed ∧ ∀ st ∈ log, ∀ q, st.command.request? = some q →
      ∀ fault, st.result ≠ .error (.envelope (.corrupt fault)) := by
  have hkept {log : List Step} {c : Cluster} (hruns : Reaches Offers start log c) :
      c.WellFormed :=
    hruns.invariant (I := fun _ c => c.WellFormed)
      ⟨fun i r v row hrow => absurd hrow (htables i r v row),
        fun i _ _ _ _ _ hb => by rw [hcaches] at hb; cases hb⟩
      (fun _ _ h => h.next) (fun _ _ _ hc h => h.offers hc)
  refine ⟨hkept hruns, fun st hst q hcmd fault hres => ?_⟩
  obtain ⟨before, after, hlog⟩ := List.append_of_mem hst
  have hfound := hkept (hruns.found hlog)
  obtain ⟨t, ht, -⟩ := Step.request_cases hcmd
  refine ht.ne_corrupt (hfound.tables st.site.table) (hfound.caches st.site.cache) fault ?_
  rcases Step.result_of_request hcmd with h | h
  · exact Store.error_of_map (h ▸ hres)
  · exact Store.error_of_map (h ▸ hres)

/-- A sealed row is written, a row whose payload is no envelope is offered, and the first one is
read. -/
theorem wellFormed_trial : ∃ put row c read b, put = trialPut trialItem trial ∧
    row = ⟨"b", 1, [], some "k", 0⟩ ∧
    c = { put.next with tables := replaceAt put.next.tables 0 ((put.next.tables 0).insert row).2 } ∧
    read = trialRead trialItem c ∧ (read.next.caches 0).peek (Key.mk "a" 1).text = some b ∧
    read.next.WellFormed ∧ ∀ fault, read.result ≠ .error (.envelope (.corrupt fault)) := by
  obtain ⟨put, hput⟩ : ∃ put, put = trialPut trialItem trial := ⟨_, rfl⟩
  obtain ⟨row, hrow⟩ : ∃ row : Row, row = ⟨"b", 1, [], some "k", 0⟩ := ⟨_, rfl⟩
  obtain ⟨c, hc⟩ : ∃ c : Cluster, c =
    { put.next with tables := replaceAt put.next.tables 0 ((put.next.tables 0).insert row).2 } :=
    ⟨_, rfl⟩
  obtain ⟨read, hread⟩ : ∃ read, read = trialRead trialItem c := ⟨_, rfl⟩
  have hput' : Reaches Offers trial [put] put.next := Reaches.start.step (by rw [hput]; rfl)
  have hc' : Reaches Offers trial [put] c := hput'.outside (by rw [hc]; exact .row 0 row)
  have hruns : Reaches Offers trial [put, read] read.next := hc'.step (by rw [hread]; rfl)
  have hsome : ((read.next.caches 0).peek (Key.mk "a" 1).text).isSome = true := by
    rw [hread, hc, hrow, hput]
    decide +kernel
  obtain ⟨b, hb⟩ := Option.isSome_iff_exists.mp hsome
  obtain ⟨hkept, hresults⟩ := hruns.wellFormed (fun _ _ => rfl) fun _ _ _ _ => nofun
  refine ⟨put, row, c, read, b, hput, hrow, hc, hread, hb, hkept, ?_⟩
  refine hresults read (by simp) ⟨.creds, "a", 1, ⟨none, some trialSecret⟩⟩ ?_
  rw [hread]
  rfl

end Cluster

end ObjectTiers
