/-
What binds stored data to its identity.

The associated data tell the identity, so what was sealed for one identity is opened for no other
(`Payload.decodeSealed_of_ne`). What the table holds is served under its own identity alone: a table
has rows only under their identities, however rows and files came into it, a read decrypts with
nothing but the associated data of the identity it asks for, and an entry that it writes into the
cache is one of that identity (`Cluster.Reaches.abides`).
-/
import ObjectTiers.Proofs.Admission
import ObjectTiers.Proofs.Envelope

namespace ObjectTiers

/-! ### Associated data -/

/-- The associated data tell the identity, also where the length in front of the reference has
wrapped: the version takes the last two bytes, and the reference all between. -/
theorem associatedData_injective {r r' : String} {v v' : UInt16}
    (h : associatedData r v = associatedData r' v') : r = r' ∧ v = v' := by
  have hwidth (n : Nat) : (Bytes.bigBytes 2 n).length = 2 := by
    rw [Bytes.bigBytes, List.length_reverse, Bytes.length_littleBytes]
  simp only [associatedData] at h
  obtain ⟨hrest, hversion⟩ := List.append_inj' h (by rw [hwidth, hwidth])
  obtain ⟨-, href⟩ := List.append_inj hrest (by rw [hwidth, hwidth])
  refine ⟨Bytes.ofText_injective href, ?_⟩
  have hlittle := congrArg Bytes.littleNat (List.reverse_injective hversion)
  rwa [Bytes.littleNat_littleBytes v.toNat_lt, Bytes.littleNat_littleBytes v'.toNat_lt,
    UInt16.toNat_inj] at hlittle

/-! ### Ciphers -/

namespace Cipher

/-- Whatever the secret, a message is not opened with other associated data than it was sealed
with. -/
def Binds (c : Cipher) : Prop :=
  ∀ {s t : Secret} {nonce plaintext aad aad' : Bytes} {parts : Sealed},
    c.encrypt s nonce plaintext aad = .ok parts → aad' ≠ aad →
      ∃ e, c.decrypt t parts aad' = .error e

/-- Two ciphers open the same with the associated data of an identity. -/
def AgreesAt (c c' : Cipher) (r : String) (v : UInt16) : Prop :=
  ∀ t parts, c.decrypt t parts (associatedData r v) = c'.decrypt t parts (associatedData r v)

theorem AgreesAt.decodeSealed {c c' : Cipher} {r : String} {v : UInt16} (h : c.AgreesAt c' r v)
    (k : Kind) (t : Secret) (b : Bytes) :
    Payload.decodeSealed c k t r v b = Payload.decodeSealed c' k t r v b := by
  simp only [Payload.decodeSealed, h t]

/-- Associated data in a form of which no other one is the beginning. -/
def label (aad : Bytes) : Bytes := List.replicate aad.length 1 ++ 0 :: aad

theorem eq_of_label {aad aad' rest : Bytes} (h : label aad' <+: label aad ++ rest) :
    aad' = aad := by
  obtain ⟨rest', h⟩ := h
  simp only [label, List.append_assoc, List.cons_append] at h
  have hones := congrArg (fun b => (b.takeWhile (· == 1)).length) h
  have hlength : aad'.length = aad.length := by simpa [List.takeWhile_append] using hones
  obtain ⟨-, htail⟩ := List.append_inj h (by simp [hlength])
  exact (List.append_inj (List.cons.inj htail).2 hlength).1

/-- A cipher with the associated data written before its ciphertexts. -/
def labelled (c : Cipher) : Cipher where
  encrypt secret nonce plaintext aad :=
    (c.encrypt secret nonce plaintext aad).map fun parts =>
      { parts with ciphertext := label aad ++ parts.ciphertext }
  decrypt secret parts aad :=
    if label aad <+: parts.ciphertext then
      c.decrypt secret { parts with ciphertext := parts.ciphertext.drop (label aad).length } aad
    else .error .authenticationFailed

theorem binds_labelled (c : Cipher) : c.labelled.Binds := by
  intro s t nonce plaintext aad aad' parts h hne
  refine ⟨.authenticationFailed, ?_⟩
  cases hc : c.encrypt s nonce plaintext aad with
  | error e => simp only [labelled, hc] at h; cases h
  | ok inner =>
    simp only [labelled, hc] at h
    cases h
    exact if_neg fun hprefix => hne (eq_of_label hprefix)

end Cipher

namespace Payload

/-- The associated data differ for different identities, valid or not, so a sealed payload is opened
under no other identity: the envelope is read, but its decryption fails. -/
theorem decodeSealed_of_ne :
    (∀ {r r' : String} {v v' : UInt16}, associatedData r v = associatedData r' v' →
      r = r' ∧ v = v') ∧
    ∀ {c : Cipher}, c.Binds → ∀ {s t : Secret} {nonce : Bytes} {x : Item} {p : Payload} {k : Kind}
      {r r' : String} {v v' : UInt16}, encodeSealed c s nonce r v x = .ok p → (r', v') ≠ (r, v) →
      ∃ e, decodeSealed c k t r' v' p.bytes = .error (.decryptionFailed r' v' e) := by
  refine ⟨associatedData_injective, ?_⟩
  intro c hbinds s t nonce x p k r r' v v' h hne
  obtain ⟨b, parts, -, hparts, hbuild, -⟩ := encodeSealed_ok h
  have haad : associatedData r' v' ≠ associatedData r v := by
    intro heq
    obtain ⟨rfl, rfl⟩ := associatedData_injective heq
    exact hne rfl
  obtain ⟨e, he⟩ := hbinds (t := t) hparts haad
  refine ⟨e, ?_⟩
  simp only [decodeSealed, Envelope.parse_build hbuild, he]

/-- An item that was sealed for version 1 is opened as version 1, and not as version 2. -/
theorem decodeSealed_of_ne_labelled : ∃ p e,
    encodeSealed Cipher.chaCha.labelled Cluster.trialSecret (List.replicate 12 1) "a" 1
      Cluster.trialItem = .ok p ∧
    (decodeSealed Cipher.chaCha.labelled .creds Cluster.trialSecret "a" 1 p.bytes).isOk = true ∧
    decodeSealed Cipher.chaCha.labelled .creds Cluster.trialSecret "a" 2 p.bytes =
      .error (.decryptionFailed "a" 2 e) := by
  have hopens : (encodeSealed Cipher.chaCha.labelled Cluster.trialSecret (List.replicate 12 1) "a" 1
      Cluster.trialItem).toOption.any (fun p => (decodeSealed Cipher.chaCha.labelled .creds
        Cluster.trialSecret "a" 1 p.bytes).isOk) = true := by
    decide +kernel
  cases hp : encodeSealed Cipher.chaCha.labelled Cluster.trialSecret (List.replicate 12 1) "a" 1
      Cluster.trialItem with
  | error e =>
    rw [hp] at hopens
    cases hopens
  | ok p =>
    rw [hp] at hopens
    obtain ⟨e, he⟩ : ∃ e, decodeSealed Cipher.chaCha.labelled .creds Cluster.trialSecret "a" 2
        p.bytes = .error (.decryptionFailed "a" 2 e) :=
      decodeSealed_of_ne.2 (Cipher.binds_labelled _) hp (by decide)
    exact ⟨p, e, rfl, hopens, he⟩

end Payload

/-! ### Tables -/

theorem Directory.find_of_misplaced {d : Directory} {r : String} {v : UInt16} {path : Path}
    {bytes : Bytes} {row : Row} (hpath : rowPath r v = .ok path) (hread : d.read path = .ok bytes)
    (hrow : Row.ofBytes? bytes = some row) (hother : (row.objectRef, row.version) ≠ (r, v)) :
    (d.find r v).1 =
      .error (.invariant (.misplaced (pathText path) row.objectRef row.version)) := by
  have hid : ¬ (row.objectRef = r ∧ row.version = v) := fun h => hother (Prod.ext h.1 h.2)
  simp only [find, hpath, hread, hrow, if_neg hid]

namespace Table

/-- Puts a row into a table in the memory unchecked. -/
def place (t : Table) (row : Row) : Table :=
  match t with
  | .memory m => .memory (m.place row)
  | .trial t => .trial { t with inner := t.inner.place row }
  | .directory d => .directory d

/-- The tables that calls can come to. A table in the memory is empty at first and takes rows
checked or unchecked, and one that counts may be told anything; a directory may hold any files. -/
inductive Arises : Table → Prop
  | memory : Arises (.memory .empty)
  | trial : Arises (.trial .empty)
  | directory (d : Directory) : Arises (.directory d)
  | insert {t : Table} (h : Arises t) (row : Row) : Arises (t.insert row).2
  | place {t : Table} (h : Arises t) (row : Row) : Arises (t.place row)
  | find {t : Table} (h : Arises t) (r : String) (v : UInt16) : Arises (t.find r v).2.1
  | told {t t' : TrialTable} (h : Arises (.trial t)) (hrows : t'.inner = t.inner) :
    Arises (.trial t')

theorem Filed.place_row {t : Table} (h : t.Filed) (row : Row) : (t.place row).Filed := by
  cases t with
  | memory m => exact h.place row
  | trial t => exact Filed.place (m := t.inner) h row
  | directory d => exact h

theorem Arises.filed {t : Table} (h : t.Arises) : t.Filed := by
  induction h with
  | memory => intro r v row hrow; cases hrow
  | trial => intro r v row hrow; cases hrow
  | directory d => exact filed_directory d
  | insert _ row ih => exact ih.insert (Prod.eta _).symm
  | place _ row ih => exact ih.place_row row
  | find _ r v ih => exact ih.find r v
  | told _ hrows ih =>
    intro r v row hrow
    refine ih r v row ?_
    simpa only [peek, hrows] using hrow

end Table

/-! ### Reads -/

namespace Store

/-- The store with another cipher. -/
def withCipher (s : Store) (c : Cipher) : Store := { s with cipher := c }

section

variable {s : Store} {c : Cipher} {k : Kind} {key : Key} {explicit : Option Secret} {row : Row}

theorem opened_withCipher (h : c.AgreesAt s.cipher key.objectRef key.version) (keyId : String)
    (b : Bytes) :
    (s.withCipher c).opened k key keyId explicit b = s.opened k key keyId explicit b := by
  simp only [opened, withCipher, h.decodeSealed]
  rfl

theorem judge_withCipher (h : c.AgreesAt s.cipher key.objectRef key.version) (b : Bytes) :
    (s.withCipher c).judge k key explicit b = s.judge k key explicit b := by
  simp only [judge, judgePayload, withCipher, h.decodeSealed]
  rfl

theorem lookUp_withCipher (h : c.AgreesAt s.cipher key.objectRef key.version) :
    (s.withCipher c).lookUp k key explicit = s.lookUp k key explicit := by
  simp only [lookUp, judge_withCipher h]
  rfl

theorem materialize_withCipher (h : c.AgreesAt s.cipher key.objectRef key.version)
    (hown : row.objectRef = key.objectRef ∧ row.version = key.version) :
    (s.withCipher c).materialize k key row explicit = s.materialize k key row explicit := by
  cases hid : row.keyId with
  | none => rw [materialize_plain hid, materialize_plain hid]
  | some keyId =>
    rw [materialize_sealed hid hown, materialize_sealed hid hown, opened_withCipher h]

/-- The row is of the identity that was asked for, so the cipher is not asked about another. -/
theorem load_withCipher (h : c.AgreesAt s.cipher key.objectRef key.version) {σ : Session}
    (hfiled : σ.tiers.table.Filed) (useCache : Bool) :
    (s.withCipher c).load k key useCache explicit σ = s.load k key useCache explicit σ := by
  rw [load, load]
  cases hfind : (σ.tiers.table.find key.objectRef key.version).1 with
  | error e =>
    rw [Action.bind_error (Action.tableFind_error hfind),
      Action.bind_error (Action.tableFind_error hfind)]
  | ok found =>
    rw [Action.bind_ok (Action.tableFind_ok hfind), Action.bind_ok (Action.tableFind_ok hfind)]
    cases found with
    | none => rfl
    | some row =>
      have hown := hfiled _ _ _ (Table.peek_of_find hfind)
      simp only [materialize_withCipher h hown]
      rfl

/-- A read depends on no more of the cipher than on what it opens with the associated data of the
identity that is read. -/
theorem fetch_withCipher {r : String} {v : UInt16} {o : ReadOptions} {σ : Session}
    (h : c.AgreesAt s.cipher r v) (hfiled : σ.tiers.table.Filed) :
    (s.withCipher c).fetch k r v o σ = s.fetch k r v o σ := by
  rw [fetch, fetch]
  cases hkey : Identity.validate r v with
  | error e => rfl
  | ok key =>
  cases Identity.eq_of_validate hkey
  have hlift : Action.lift .validation (Except.ok (Key.mk r v)) σ = (.ok ⟨r, v⟩, σ) := rfl
  rw [Action.bind_ok hlift, Action.bind_ok hlift]
  cases hm : σ.tiers.memory.getItem k (Key.mk r v).text with
  | mk found rest =>
  obtain ⟨m, ws⟩ := rest
  have hget : Action.memoryGet k (Key.mk r v).text σ =
      (.ok found, ⟨{ σ.tiers with memory := m }, σ.warnings ++ ws⟩) := by
    simp only [Action.memoryGet, hm]
  rw [Action.bind_ok hget, Action.bind_ok hget]
  cases found with
  | some x => rfl
  | none =>
  have huse : o.useCache.getD (s.withCipher c).config.useCache =
      o.useCache.getD s.config.useCache := rfl
  have hagrees : c.AgreesAt s.cipher (Key.mk r v).objectRef (Key.mk r v).version := h
  dsimp only
  rw [Action.ite_bind, Action.ite_bind, lookUp_withCipher hagrees, huse]
  obtain ⟨res, c', ws', hlook, -⟩ := s.lookUp_cases k ⟨r, v⟩ o.secret
    (o.useCache.getD s.config.useCache) ⟨{ σ.tiers with memory := m }, σ.warnings ++ ws⟩
  cases res with
  | error e => rw [Action.bind_error hlook, Action.bind_error hlook]
  | ok found =>
    rw [Action.bind_ok hlook, Action.bind_ok hlook]
    cases found with
    | some x => rfl
    | none =>
      dsimp only
      refine load_withCipher hagrees ?_ _
      exact hfiled

end

/-- A read keeps to the identity it asks for. A row is opened under that identity, with what the
cipher opens with its associated data and nothing else, and the cache is at most asked for it and
then given one entry of it under its key. -/
structure Abides (s : Store) (q : Request) (t : Tiers) : Prop where
  opens : ∀ {row keyId}, (t.table.find q.objectRef q.version).1 = .ok (some row) →
    row.keyId = some keyId → s.materialize q.kind ⟨q.objectRef, q.version⟩ row q.options.secret =
      s.opened q.kind ⟨q.objectRef, q.version⟩ keyId q.options.secret row.payload
  decrypts : ∀ {c : Cipher}, c.AgreesAt s.cipher q.objectRef q.version → ∀ ws,
    (s.withCipher c).fetch q.kind q.objectRef q.version q.options ⟨t, ws⟩ =
      s.fetch q.kind q.objectRef q.version q.options ⟨t, ws⟩
  writes : ∀ ws, ∃ c : Cache, c.peek = t.cache.peek ∧
    ((s.fetch q.kind q.objectRef q.version q.options ⟨t, ws⟩).2.tiers.cache = c ∨
    ∃ b e, Entry.ofBytes? b = some e ∧ e.objectRef = q.objectRef ∧ e.version = q.version ∧
      (s.fetch q.kind q.objectRef q.version q.options ⟨t, ws⟩).2.tiers.cache =
        (c.set (Key.mk q.objectRef q.version).text b s.config.ttlMilliseconds).2)

/-- What a read from a filed table does to the cache: at most one entry of the identity that was
asked for is set under its key. -/
theorem Loads.cache_eq {s : Store} {k : Kind} {key : Key} {useCache : Bool}
    {secret : Option Secret} {t t' : Tiers} {res : Except StoreError Fetched}
    (h : Loads s k key useCache secret t res t') (hfiled : t.table.Filed) :
    t'.cache = t.cache ∨ ∃ b e, Entry.ofBytes? b = some e ∧ e.objectRef = key.objectRef ∧
      e.version = key.version ∧ t'.cache = (t.cache.set key.text b s.config.ttlMilliseconds).2 := by
  cases h with
  | failed h | absent h | unreadable h | uncacheable h | uncached h => exact .inl rfl
  | cached h hx huse hform hwrite =>
    obtain ⟨hr, hv⟩ := hfiled _ _ _ (Table.peek_of_find h)
    rcases hwrite.cache_eq with hc | ⟨b, hb, hc⟩
    · exact .inl hc
    · exact .inr ⟨b, _, Entry.ofBytes?_of_encode? hb, hr, hv, hc⟩

theorem abides_of_filed {s : Store} {q : Request} {t : Tiers} (hfiled : t.table.Filed) :
    s.Abides q t := by
  refine ⟨?_, fun h _ => fetch_withCipher h hfiled, ?_⟩
  · intro row keyId hfind hid
    exact materialize_sealed hid (hfiled _ _ _ (Table.peek_of_find hfind))
  · intro ws
    have hfetch := s.fetch_cases q.kind q.objectRef q.version q.options ⟨t, ws⟩
    generalize s.fetch q.kind q.objectRef q.version q.options ⟨t, ws⟩ = after at hfetch ⊢
    obtain ⟨res, ⟨t', ws'⟩⟩ := after
    simp only at hfetch ⊢
    cases hfetch with
    | invalid hkey => exact ⟨_, rfl, .inl rfl⟩
    | memory hkey hm => exact ⟨_, rfl, .inl rfl⟩
    | refused hkey hm hc => exact ⟨_, hc.peek_eq, .inl rfl⟩
    | cache hkey hm hc => exact ⟨_, hc.peek_eq, .inl rfl⟩
    | table hkey hm hc hload =>
      cases Identity.eq_of_validate hkey
      exact ⟨_, hc.peek_eq, hload.cache_eq hfiled⟩

theorem Performs.arises {s : Store} {t t' : Tiers} {cmd : Command} {res : Except StoreError Reply}
    (h : Performs s t cmd res t') (ht : t.table.Arises) : t'.table.Arises := by
  rcases h.table_cases with htable | ⟨r, v, htable⟩ | ⟨row, htable⟩
  · rwa [htable]
  · rw [htable]
    exact ht.find r v
  · rw [htable]
    exact ht.insert row

end Store

/-! ### Runs -/

namespace Cluster

/-- Anything may happen outside, to the files of a directory too, but a table in the memory takes
rows by its calls alone. -/
structure Tampers (c c' : Cluster) : Prop where
  tables : ∀ i, (c.tables i).Arises → (c'.tables i).Arises

theorem Reaches.arises {start c : Cluster} {log : List Step}
    (htables : ∀ i, (start.tables i).Arises) (hruns : Reaches Tampers start log c) (i : Nat) :
    (c.tables i).Arises := by
  refine hruns.invariant (I := fun _ c => ∀ i, (c.tables i).Arises) htables ?_ ?_ i
  · intro log st h i
    obtain ⟨t, ht, hnext⟩ := st.cases
    rw [hnext, tables_withTiers]
    split
    · exact ht.arises (h _)
    · exact h i
  · intro log c c' hc h i
    exact hc.tables i (h i)

/-- Whatever rows were injected and whatever stands in the files, a table answers with rows of the
identity it is asked for only, and a file with a row of another identity in it is an error. So every
read of a run keeps to its identity. -/
theorem Reaches.abides {start c : Cluster} {log : List Step}
    (htables : ∀ i, (start.tables i).Arises) (hruns : Reaches Tampers start log c) :
    (∀ i {r v row}, ((c.tables i).find r v).1 = .ok (some row) →
      row.objectRef = r ∧ row.version = v) ∧
    (∀ i {d : Directory} {r v path bytes} {row : Row}, c.tables i = .directory d →
      Directory.rowPath r v = .ok path → d.read path = .ok bytes → Row.ofBytes? bytes = some row →
      (row.objectRef, row.version) ≠ (r, v) →
      ((c.tables i).find r v).1 = .error (.invariant
        (.misplaced (Directory.pathText path) row.objectRef row.version))) ∧
    ∀ st ∈ log, ∀ q, st.command.request? = some q → st.site.store.Abides q st.tiers := by
  refine ⟨?_, ?_, ?_⟩
  · intro i r v row hfind
    exact (hruns.arises htables i).filed _ _ _ (Table.peek_of_find hfind)
  · intro i d r v path bytes row hd hpath hread hrow hother
    rw [hd]
    exact Directory.find_of_misplaced hpath hread hrow hother
  · intro st hst q hq
    obtain ⟨before, after, hlog⟩ := List.append_of_mem hst
    exact Store.abides_of_filed ((hruns.found hlog).arises htables st.site.table).filed

/-- A sealed row. -/
def strayRow : Row := ⟨"a", 1, [0, 0], some "k", 0⟩

/-- The row was put into one table unchecked, and stands in another in the file of another row. -/
def stray : Cluster := { trial with
  tables := fun i =>
    if i = 0 then (Table.memory .empty).place strayRow
    else .directory ⟨⟨[(["b", "00001.row"], strayRow.toBytes)]⟩, []⟩ }

/-- It is found under its own identity, and reported as misplaced under the other. A read that finds
it keeps to its identity. -/
theorem abides_stray : ∃ read, read = trialRead trialItem stray ∧
    ((stray.tables 0).find "a" 1).1 = .ok (some strayRow) ∧
    (strayRow.objectRef = "a" ∧ strayRow.version = 1) ∧
    ((stray.tables 1).find "b" 1).1 =
      .error (.invariant (.misplaced "<root>/b/00001.row" "a" 1)) ∧
    trialSite.store.Abides ⟨.creds, "a", 1, ⟨none, some trialSecret⟩⟩ read.tiers := by
  obtain ⟨read, hread⟩ : ∃ read, read = trialRead trialItem stray := ⟨_, rfl⟩
  have htables (i : Nat) : (stray.tables i).Arises := by
    simp only [stray]
    split
    · exact Table.Arises.memory.place strayRow
    · exact .directory _
  have hrow : ((stray.tables 0).find "a" 1).1 = .ok (some strayRow) := by decide +kernel
  have hbytes : Row.ofBytes? strayRow.toBytes = some strayRow := by decide +kernel
  have hpath : Directory.rowPath "b" 1 = .ok ["b", "00001.row"] := by decide +kernel
  obtain ⟨hfound, hmisplaced, -⟩ := Reaches.start.abides htables
  have hruns : Reaches Tampers stray [read] read.next := Reaches.start.step (by rw [hread]; rfl)
  obtain ⟨-, -, habides⟩ := hruns.abides htables
  refine ⟨read, hread, hrow, hfound 0 hrow, ?_, ?_⟩
  · exact hmisplaced 1 rfl hpath (by decide +kernel) hbytes (by decide)
  · have h := habides read (by simp) ⟨.creds, "a", 1, ⟨none, some trialSecret⟩⟩ (by rw [hread]; rfl)
    rwa [hread] at h ⊢

end Cluster

end ObjectTiers
