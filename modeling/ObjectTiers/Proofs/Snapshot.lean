/-
How stale a read can be. A store whose reads use the cache, and that uses every identity as one kind
and with one secret, answers as two registers for each identity would (`Ledger`): the item that was
stored last, and the one that reads have been answered with since it was removed, or since the
memory was cleared if the kind is never cached (`Cluster.Reaches.snapshot`). That takes room in the
memory and in the cache: where the cache has none, a snapshot is lost with the memory
(`Cluster.snapshot_lost_of_roomless`).

The simulation (`Store.Simulates`) is one for each identity: the tiers track its two registers
(`Store.Tracks`).
-/
import ObjectTiers.Proofs.Tracking

namespace ObjectTiers

/-! ### Registers -/

/-- Two registers for each identity: the item that was stored last, and the one that reads are
answered with. -/
structure Ledger where
  current : String → UInt16 → Option Item
  snapshot : String → UInt16 → Option Item

namespace Ledger

/-- Nothing was stored, and nothing read. -/
def empty : Ledger := ⟨fun _ _ => none, fun _ _ => none⟩

/-- The registers with one of them changed. -/
def set (registers : String → UInt16 → Option Item) (r : String) (v : UInt16) (x : Option Item) :
    String → UInt16 → Option Item :=
  fun s w => if s = r ∧ w = v then x else registers s w

/-- What a read gets: the snapshot, or else the current item. -/
def served (l : Ledger) (r : String) (v : UInt16) : Option Item :=
  (l.snapshot r v).or (l.current r v)

/-- What a read is answered. -/
def answer (l : Ledger) (r : String) (v : UInt16) : Except StoreError Item :=
  match Identity.validate r v with
  | .error e => .error (.validation e)
  | .ok _ =>
    match l.served r v with
    | some x => .ok x
    | none => .error (.notFound r v)

/-- The registers after a command that succeeded or failed. -/
def next (l : Ledger) (cmd : Command) (succeeded : Bool) : Ledger :=
  match cmd with
  | .put x _ _ _ =>
    if succeeded then { l with current := set l.current x.objectRef x.version (some x) } else l
  | .fetch _ r v _ | .get _ r v _ => { l with snapshot := set l.snapshot r v (l.served r v) }
  | .purge r v => { l with snapshot := set l.snapshot r v none }
  | .clearMemory =>
    { l with
      snapshot := fun r v => (l.snapshot r v).filter (·.kind.encryption ≠ .cacheDecrypted) }

/-- The registers after the steps of a log. -/
def replay (log : List Step) : Ledger :=
  log.foldl (fun l st => l.next st.command st.result.isOk) empty

@[simp] theorem set_self (registers : String → UInt16 → Option Item) (r : String) (v : UInt16)
    (x : Option Item) : set registers r v x r v = x := if_pos ⟨rfl, rfl⟩

theorem set_of_ne (registers : String → UInt16 → Option Item) {r r' : String} {v v' : UInt16}
    (x : Option Item) (h : Key.mk r' v' ≠ ⟨r, v⟩) : set registers r v x r' v' = registers r' v' :=
  if_neg fun ⟨hr, hv⟩ => h (by rw [hr, hv])

theorem next_of_request {cmd : Command} {q : Request} (h : cmd.request? = some q) (l : Ledger)
    (succeeded : Bool) : l.next cmd succeeded = { l with
      snapshot := set l.snapshot q.objectRef q.version (l.served q.objectRef q.version) } := by
  cases cmd <;> cases h <;> rfl

theorem replay_append (log : List Step) (st : Step) :
    replay (log ++ [st]) = (replay log).next st.command st.result.isOk := by
  rw [replay, List.foldl_append]
  rfl

end Ledger

/-! ### All identities -/

/-- What each identity is used as: one kind, and one secret if that is encrypted. -/
structure Plan where
  kind : String → UInt16 → Kind
  secret : String → UInt16 → Option Secret

/-- A step that uses identities as planned. Writes are of kinds other than documents and of rows
below `2 ^ 30` bytes; reads use the cache, and find room in the memory. -/
structure Step.Follows (st : Step) (plan : Plan) : Prop where
  put : ∀ x secret nonce now, st.command = .put x secret nonce now →
    x.kind = plan.kind x.objectRef x.version ∧ x.kind ≠ .document ∧
    (x.kind.isEncrypted = true → secret = plan.secret x.objectRef x.version) ∧
    nonce.length = nonceSize ∧
    ∀ row, st.result = .ok (.row row) → row.toBytes.length < Layout.textLimit
  read : ∀ q, st.command.request? = some q → q.kind = plan.kind q.objectRef q.version ∧
    (q.kind.isEncrypted = true → ∀ t ∈ plan.secret q.objectRef q.version,
      st.site.store.Unlocks t q.options.secret) ∧
    q.options.useCache.getD st.site.store.config.useCache = true ∧
    st.tiers.memory.HasRoom (Key.mk q.objectRef q.version).text

/-- A read of a kind that is cached finds room in the cache. -/
def Step.FindsRoom (st : Step) : Prop :=
  ∀ q, st.command.request? = some q → q.kind.encryption ≠ .cacheDecrypted →
    st.tiers.cache.HasRoom (Key.mk q.objectRef q.version).text

namespace Store

/-- The tiers work, and hold for every valid identity what the registers say. -/
structure Simulates (s : Store) (plan : Plan) (l : Ledger) (t : Tiers) : Prop where
  works : t.Works
  tracks : ∀ r v, Identity.validate r v = .ok ⟨r, v⟩ →
    s.Tracks ⟨r, v⟩ (plan.kind r v) (plan.secret r v) (l.current r v) (l.snapshot r v) t

variable {s : Store} {plan : Plan} {l : Ledger} {t t' : Tiers}

theorem Simulates.put {x : Item} {secret : Option Secret} {nonce : Bytes} {now : Int64}
    {res : Except StoreError Row} (h : s.Simulates plan l t) (hcipher : s.cipher = .chaCha)
    (hplan : x.kind = plan.kind x.objectRef x.version) (hkind : x.kind ≠ .document)
    (hsecret : x.kind.isEncrypted = true → secret = plan.secret x.objectRef x.version)
    (hnonce : nonce.length = nonceSize)
    (hsize : ∀ row, res = .ok row → row.toBytes.length < Layout.textLimit) (hworks : t'.Works)
    (hput : Puts s x secret nonce now t res t') :
    s.Simulates plan (l.next (.put x secret nonce now) res.isOk) t' := by
  refine ⟨hworks, ?_⟩
  intro r v hkey
  have htracks := h.tracks r v hkey
  cases res with
  | error e =>
    obtain ⟨hmemory, hcache, htable⟩ := hput.of_error rfl
    exact htracks.congr (by rw [hmemory]) (by rw [hcache]) (by rw [htable])
  | ok row =>
    obtain ⟨-, ⟨p, hp, rfl⟩, hmemory, hcache, htable⟩ := hput.of_ok rfl
    simp only [Ledger.next, Except.isOk, Except.toBool, if_true]
    by_cases hid : Key.mk r v = ⟨x.objectRef, x.version⟩
    · cases hid
      rw [Ledger.set_self]
      have hserves := serves_of_encode hcipher hkind hnonce hp (hsize _ rfl)
      refine htracks.put rfl hplan hmemory hcache ?_ (hserves.of_plan hsecret)
      rw [htable, if_pos ⟨rfl, rfl⟩]
    · rw [Ledger.set_of_ne _ _ hid]
      refine htracks.congr (by rw [hmemory]) (by rw [hcache]) ?_
      rw [htable, if_neg]
      rintro ⟨rfl, rfl⟩
      exact hid rfl

/-- A read is answered what the registers have, and keeps the simulation. -/
theorem Simulates.read {q : Request} {res : Except StoreError Fetched} (h : s.Simulates plan l t)
    (hplan : q.kind = plan.kind q.objectRef q.version)
    (hopens : q.kind.isEncrypted = true → ∀ given ∈ plan.secret q.objectRef q.version,
      s.Unlocks given q.options.secret)
    (huse : q.options.useCache.getD s.config.useCache = true)
    (hroom : t.memory.HasRoom (Key.mk q.objectRef q.version).text)
    (hcroom : q.kind.encryption ≠ .cacheDecrypted →
      t.cache.HasRoom (Key.mk q.objectRef q.version).text)
    (hfetch : Fetches s q.kind q.objectRef q.version q.options t res t') :
    (∃ tier, res = (l.answer q.objectRef q.version).map fun x => ⟨x, tier⟩) ∧
      s.Simulates plan { l with
        snapshot := Ledger.set l.snapshot q.objectRef q.version
          (l.served q.objectRef q.version) } t' := by
  have hworks := hfetch.works h.works
  cases hkey : Identity.validate q.objectRef q.version with
  | error e =>
    obtain ⟨rfl, rfl⟩ := hfetch.of_invalid hkey
    refine ⟨⟨.table, by rw [Ledger.answer, hkey]; rfl⟩, hworks, ?_⟩
    intro r v hvalid
    dsimp only
    rw [Ledger.set_of_ne]
    · exact h.tracks r v hvalid
    · intro hid
      cases hid
      rw [hkey] at hvalid
      cases hvalid
  | ok key =>
    cases Identity.eq_of_validate hkey
    rw [hplan] at hfetch hopens hcroom
    have hreplies := (h.tracks _ _ hkey).replies h.works hkey hroom hcroom huse hopens hfetch
    constructor
    · obtain ⟨tier, hres⟩ := hreplies.answer
      refine ⟨tier, ?_⟩
      rw [hres, Ledger.answer, hkey, Ledger.served]
      cases (l.snapshot q.objectRef q.version).or (l.current q.objectRef q.version) <;> rfl
    · refine ⟨hworks, ?_⟩
      intro r v hvalid
      dsimp only
      by_cases hid : Key.mk r v = ⟨q.objectRef, q.version⟩
      · cases hid
        rw [Ledger.set_self]
        exact hreplies.tracks
      · rw [Ledger.set_of_ne _ _ hid]
        exact (h.tracks r v hvalid).of_spares hreplies.spares hid

theorem Simulates.purge {r : String} {v : UInt16} {res : Except StoreError Unit}
    (h : s.Simulates plan l t) (hworks : t'.Works) (hpurge : Purges s r v t res t')
    (succeeded : Bool) : s.Simulates plan (l.next (.purge r v) succeeded) t' := by
  refine ⟨hworks, ?_⟩
  intro r' v' hvalid
  have htracks := h.tracks r' v' hvalid
  show s.Tracks _ _ _ _ (Ledger.set l.snapshot r v none r' v') t'
  cases hkey : Identity.validate r v with
  | error e =>
    rw [(hpurge.of_invalid hkey).2, Ledger.set_of_ne]
    · exact htracks
    · intro hid
      cases hid
      rw [hkey] at hvalid
      cases hvalid
  | ok key =>
    cases Identity.eq_of_validate hkey
    obtain ⟨hmemory, htable, hcache⟩ := hpurge.of_works hkey h.works
    have hspares : Spares ⟨r, v⟩ t t' := by
      refine ⟨fun j hj => ?_, fun j hj => ?_, fun _ _ _ => by rw [htable]⟩
      · rw [hmemory]
        exact Dictionary.get?_erase_of_ne _ hj
      · rw [hcache, if_neg hj]
    by_cases hid : Key.mk r' v' = ⟨r, v⟩
    · cases hid
      rw [Ledger.set_self]
      refine htracks.purge ?_ ?_ htable
      · rw [hmemory]
        exact Dictionary.get?_erase_self _ _
      · rw [hcache, if_pos rfl]
    · rw [Ledger.set_of_ne _ _ hid]
      exact htracks.of_spares hspares hid

theorem Simulates.settle (h : s.Simulates plan l t) : s.Simulates plan l t.settle :=
  ⟨h.works.congr (Cache.fails_settle _) rfl, fun r v hkey => (h.tracks r v hkey).settle⟩

end Store

/-! ### Runs -/

namespace Cluster

variable {start c c' : Cluster} {log before after : List Step} {st : Step} {plan : Plan}
  {l : Ledger} {site : Site} {q : Request}

theorem simulates_next (h : st.site.store.Simulates plan l st.tiers) (hst : st.Follows plan)
    (hcroom : st.FindsRoom) (hcipher : st.site.store.cipher = .chaCha) :
    st.site.store.Simulates plan (l.next st.command st.result.isOk) (st.next.tiers st.site) := by
  cases hcmd : st.command.request? with
  | some q =>
    obtain ⟨hplan, hopens, huse, hroom⟩ := hst.read q hcmd
    obtain ⟨t, ht, hnext⟩ := Step.request_cases hcmd
    rw [hnext, tiers_withTiers, Ledger.next_of_request hcmd]
    exact (h.read hplan hopens huse hroom (hcroom q hcmd) ht).2.settle
  | none =>
    obtain ⟨t, ht, hnext⟩ := st.tiers_next
    have hworks := ht.works h.works
    rw [hnext]
    refine Store.Simulates.settle ?_
    generalize hc : st.command = cmd at ht hcmd
    generalize hres : st.result = res at ht
    cases ht with
    | @put x secret nonce now res t ht =>
      obtain ⟨hplan, hkind, hsecret, hnonce, hsize⟩ := hst.put _ _ _ _ hc
      have hok : (res.map Reply.row).isOk = res.isOk := by cases res <;> rfl
      rw [hok]
      refine h.put hcipher hplan hkind hsecret hnonce (fun row hrow => hsize row ?_) hworks ht
      rw [hres, hrow]
      rfl
    | fetch ht => cases hcmd
    | get ht => cases hcmd
    | purge ht => exact h.purge hworks ht _
    | clearMemory => exact ⟨hworks, fun r v hkey => (h.tracks r v hkey).clear⟩

theorem simulates_rests (h : site.store.Simulates plan l (c.tiers site)) (hc : Rests c c') :
    site.store.Simulates plan l (c'.tiers site) := by
  obtain ⟨hcells, -⟩ := hc.memories site.memory
  obtain ⟨hpeek, hfails⟩ := hc.caches site.cache
  obtain ⟨htable, htfails⟩ := hc.tables site.table
  refine ⟨h.works.congr hfails htfails, fun r v hkey => (h.tracks r v hkey).congr ?_ ?_ ?_⟩
  · exact congrArg (·.get? (Key.mk r v).text) hcells
  · exact congrFun hpeek _
  · exact congrFun (congrFun htable r) v

theorem IsEmpty.simulates (h : start.IsEmpty) (hworks : (start.tiers site).Works) :
    site.store.Simulates plan .empty (start.tiers site) := by
  refine ⟨hworks, fun r v hkey => ⟨nofun, nofun, fun _ => h.tables _ r v _ hkey, nofun, ?_,
    fun _ => h.caches _ _, nofun, fun _ => ⟨h.caches _ _, nofun⟩⟩⟩
  intro cell hcell
  rw [show (start.tiers site).memory.cells.get? _ = none from h.memories _ _] at hcell
  cases hcell

/-- Every read of a run that uses identities as planned, and finds room in the cache, is answered
what the registers of the steps before it have. -/
theorem Reaches.snapshot (hstart : start.IsEmpty) (hworks : (start.tiers site).Works)
    (hcipher : site.store.cipher = .chaCha) (hruns : Reaches Rests start log c)
    (hsteps : ∀ st ∈ log, st.site = site ∧ st.Follows plan ∧ st.FindsRoom)
    (hlog : log = before ++ st :: after) (hq : st.command.request? = some q) : ∃ tier,
      st.answer q =
        ((Ledger.replay before).answer q.objectRef q.version).map fun x => ⟨x, tier⟩ := by
  have hinv := (hruns.found hlog).invariant
    (I := fun log c => (∀ st ∈ log, st.site = site ∧ st.Follows plan ∧ st.FindsRoom) →
      site.store.Simulates plan (Ledger.replay log) (c.tiers site))
    (fun _ => hstart.simulates hworks) (fun log st ih hall => ?_)
    (fun log c c' hc ih hall => simulates_rests (ih hall) hc)
  · have hsim := hinv fun st' hst' => hsteps st' (by rw [hlog]; exact List.mem_append_left _ hst')
    obtain ⟨hsite, hfollows, hcroom⟩ := hsteps st (by rw [hlog]; simp)
    obtain ⟨hplan, hopens, huse, hroom⟩ := hfollows.read q hq
    obtain ⟨t, ht, -⟩ := Step.request_cases hq
    rw [← hsite] at hsim
    exact (hsim.read hplan hopens huse hroom (hcroom q hq) ht).1
  · obtain ⟨hsite, hfollows, hcroom⟩ := hall st (by simp)
    have hsim := ih fun st' hst' => hall st' (List.mem_append_left _ hst')
    rw [Ledger.replay_append]
    rw [← hsite] at hsim hcipher ⊢
    exact simulates_next hsim hfollows hcroom hcipher

/-- Another item of the same identity. -/
def rewritten : Item := ⟨"a", 1, .creds "id" "new"⟩

/-- Every identity is used as one kind, with the secret of the site. -/
def trialPlan (k : Kind) : Plan := ⟨fun _ _ => k, fun _ _ => some trialSecret⟩

theorem exists_row_lt (st : Step)
    (h : st.row?.any fun row => decide (row.toBytes.length < Layout.textLimit)) :
    ∃ row, st.row? = some row ∧ row.toBytes.length < Layout.textLimit := by
  obtain ⟨row, hrow, hsize⟩ := (Option.any_eq_true _ _).mp h
  exact ⟨row, hrow, of_decide_eq_true hsize⟩

theorem follows_trialPut {x : Item} {row : Row} (hkind : x.kind ≠ .document)
    (hrow : (trialPut x c).row? = some row) (hsize : row.toBytes.length < Layout.textLimit) :
    (trialPut x c).Follows (trialPlan x.kind) where
  put := by
    intro y secret nonce now hcmd
    cases hcmd
    refine ⟨rfl, hkind, fun _ => rfl, rfl, ?_⟩
    intro row' hrow'
    rw [Step.row?_eq_some.mp hrow] at hrow'
    cases hrow'
    exact hsize
  read := nofun

theorem follows_trialRead {x : Item} (hroom : (c.tiers trialSite).memory.HasRoom x.key.text) :
    (trialRead x c).Follows (trialPlan x.kind) where
  put := nofun
  read := by
    intro q hq
    cases hq
    refine ⟨rfl, ?_, rfl, hroom⟩
    intro _ t ht
    cases ht
    rfl

theorem findsRoom_trialRead {x : Item} (hroom : (c.tiers trialSite).cache.HasRoom x.key.text) :
    (trialRead x c).FindsRoom := by
  intro q hq _
  cases hq
  exact hroom

/-- A read goes on answering with what it answered before the item was written anew. -/
theorem snapshot_rewritten : ∃ put read rewrite again : Step, ∃ tier,
    put = trialPut trialItem trial ∧ read = trialRead trialItem put.next ∧
    rewrite = trialPut rewritten read.next ∧ again = trialRead trialItem rewrite.next ∧
    again.answer ⟨.creds, "a", 1, ⟨none, some trialSecret⟩⟩ = .ok ⟨trialItem, tier⟩ := by
  obtain ⟨put, hput⟩ : ∃ put, put = trialPut trialItem trial := ⟨_, rfl⟩
  obtain ⟨read, hread⟩ : ∃ read, read = trialRead trialItem put.next := ⟨_, rfl⟩
  obtain ⟨rewrite, hrewrite⟩ : ∃ rewrite, rewrite = trialPut rewritten read.next := ⟨_, rfl⟩
  obtain ⟨again, hagain⟩ : ∃ again, again = trialRead trialItem rewrite.next := ⟨_, rfl⟩
  have hput' : Reaches Rests trial [put] put.next := Reaches.start.step (by rw [hput]; rfl)
  have hread' : Reaches Rests trial [put, read] read.next := hput'.step (by rw [hread]; rfl)
  have hrewrite' : Reaches Rests trial [put, read, rewrite] rewrite.next :=
    hread'.step (by rw [hrewrite]; rfl)
  have hruns : Reaches Rests trial [put, read, rewrite, again] again.next :=
    hrewrite'.step (by rw [hagain]; rfl)
  -- what the steps come to
  obtain ⟨row, hrow, hsize⟩ := exists_row_lt put (by rw [hput]; decide +kernel)
  obtain ⟨row', hrow', hsize'⟩ :=
    exists_row_lt rewrite (by rw [hrewrite, hread, hput]; decide +kernel)
  have hfree : read.tiers.memory.size < read.tiers.memory.capacity := by
    rw [hread, hput]
    decide +kernel
  have hholds : again.tiers.memory.contains trialItem.key.text = true := by
    rw [hagain, hrewrite, hread, hput]
    decide +kernel
  have hcached : (again.tiers.cache.peek trialItem.key.text).isSome = true := by
    rw [hagain, hrewrite, hread, hput]
    decide +kernel
  obtain ⟨b, hpeek⟩ := Option.isSome_iff_exists.mp hcached
  have hsteps : ∀ st ∈ [put, read, rewrite, again],
      st.site = trialSite ∧ st.Follows (trialPlan .creds) ∧ st.FindsRoom := by
    intro st hst
    simp only [List.mem_cons, List.not_mem_nil, or_false] at hst
    rcases hst with rfl | rfl | rfl | rfl
    · subst hput
      exact ⟨rfl, follows_trialPut nofun hrow hsize, nofun⟩
    · subst hread
      exact ⟨rfl, follows_trialRead (.inr hfree), findsRoom_trialRead (by rw [hput]; trivial)⟩
    · subst hrewrite
      exact ⟨rfl, follows_trialPut nofun hrow' hsize', nofun⟩
    · subst hagain
      exact ⟨rfl, follows_trialRead (.inl hholds),
        findsRoom_trialRead (Cache.hasRoom_of_peek hpeek)⟩
  have hlog : [put, read, rewrite, again] = [put, read, rewrite] ++ again :: [] := rfl
  have hworks : (trial.tiers trialSite).Works := ⟨fun op => by cases op <;> rfl, rfl⟩
  have hcipher : trialSite.store.cipher = .chaCha := rfl
  obtain ⟨tier, hanswer⟩ := hruns.snapshot isEmpty_trial hworks hcipher hsteps hlog
    (q := ⟨.creds, "a", 1, ⟨none, some trialSecret⟩⟩) (by rw [hagain]; rfl)
  -- the second write leaves the snapshot as it is
  have hserved : (Ledger.replay [put, read, rewrite]).answer "a" 1 = .ok trialItem := by
    simp only [Ledger.replay, List.foldl, Step.row?_eq_some.mp hrow, Step.row?_eq_some.mp hrow']
    generalize read.result.isOk = succeeded
    rw [hput, hread, hrewrite]
    rfl
  rw [hserved] at hanswer
  exact ⟨put, read, rewrite, again, tier, hput, hread, hrewrite, hagain, hanswer⟩

/-! ### Without room in the cache -/

/-- Once the memory is cleared, a read that finds nothing in the cache answers with what was written
last, whatever reads were answered with before. -/
theorem answer_of_put_clear {put clear read : Step} {x : Item} {secret : Option Secret}
    {nonce : Bytes} {now : Int64} {row : Row} {o : ReadOptions}
    (hput : put.command = .put x secret nonce now) (hkind : x.kind ≠ .document)
    (hcipher : put.site.store.cipher = .chaCha) (hnonce : nonce.length = nonceSize)
    (hres : put.result = .ok (.row row)) (hsize : row.toBytes.length < Layout.textLimit)
    (hclear : clear = ⟨put.site, .clearMemory, put.next⟩)
    (hread : read = ⟨put.site, .fetch x.kind x.objectRef x.version o, clear.next⟩)
    (hworks : put.tiers.Works) (hroom : read.tiers.memory.HasRoom x.key.text)
    (habsent : read.tiers.cache.peek x.key.text = none)
    (hopens : put.site.store.Opens x secret o.secret) :
    read.answer ⟨x.kind, x.objectRef, x.version, o⟩ = .ok ⟨x, .table⟩ := by
  obtain ⟨hkey, hserves, hpeek⟩ := put.serves_of_put hput hkind hcipher hnonce hres hsize
  have hsite : read.site = put.site := by rw [hread]
  have htiers : read.tiers =
      { put.next.tiers put.site with memory := (put.next.tiers put.site).memory.clear }.settle := by
    rw [hread, hclear]
    exact tiers_withTiers _ _ _
  have hworks' : read.tiers.Works := by
    rw [hread, hclear]
    exact (Step.mk put.site .clearMemory put.next).works_next (put.works_next hworks)
  obtain ⟨t, ht, -⟩ := read.request_cases (q := ⟨x.kind, x.objectRef, x.version, o⟩)
    (by rw [hread]; rfl)
  rw [hsite] at ht
  refine (ht.of_table hkey hworks' hroom ?_ (fun _ => habsent) ?_ hserves hopens).1
  · rw [htiers]
    rfl
  · rw [htiers]
    exact hpeek

/-- The trial site with empty tiers and a cache that takes nothing. -/
def roomless : Cluster := { trial with caches := fun _ => .memory (.ofCapacity 0) }

/-- An item of a kind that is stored in the clear. -/
def plainItem (port : UInt16) : Item := ⟨"a", 1, .smtp "h" port⟩

/-- With no room in the cache the snapshot is not kept: once the memory is cleared, a read answers
with the item that was written last. And what is no identity is not reported missing. -/
theorem snapshot_lost_of_roomless :
    (∃ put read rewrite clear again : Step,
      put = trialPut (plainItem 25) roomless ∧ read = trialRead (plainItem 25) put.next ∧
      rewrite = trialPut (plainItem 26) read.next ∧ clear = trialClear rewrite.next ∧
      again = trialRead (plainItem 25) clear.next ∧
      roomless.IsEmpty ∧ (roomless.tiers trialSite).Works ∧ trialSite.store.cipher = .chaCha ∧
      Reaches Rests roomless [put, read, rewrite, clear, again] again.next ∧
      (∀ st ∈ [put, read, rewrite, clear, again],
        st.site = trialSite ∧ st.Follows (trialPlan .smtp)) ∧
      (Ledger.replay [put, read, rewrite, clear]).served "a" 1 = some (plainItem 25) ∧
      again.answer ⟨.smtp, "a", 1, ⟨none, some trialSecret⟩⟩ = .ok ⟨plainItem 26, .table⟩) ∧
    ∃ read : Step, read = trialRead ⟨"", 1, .smtp "h" 25⟩ trial ∧
      trial.IsEmpty ∧ (trial.tiers trialSite).Works ∧
      Reaches Rests trial [read] read.next ∧
      read.site = trialSite ∧ read.Follows (trialPlan .smtp) ∧ read.FindsRoom ∧
      (Ledger.replay []).served "" 1 = none ∧
      read.answer ⟨.smtp, "", 1, ⟨none, some trialSecret⟩⟩ = .error (.validation .emptyRef) := by
  constructor
  · obtain ⟨put, hput⟩ : ∃ put, put = trialPut (plainItem 25) roomless := ⟨_, rfl⟩
    obtain ⟨read, hread⟩ : ∃ read, read = trialRead (plainItem 25) put.next := ⟨_, rfl⟩
    obtain ⟨rewrite, hrewrite⟩ : ∃ rewrite, rewrite = trialPut (plainItem 26) read.next := ⟨_, rfl⟩
    obtain ⟨clear, hclear⟩ : ∃ clear, clear = trialClear rewrite.next := ⟨_, rfl⟩
    obtain ⟨again, hagain⟩ : ∃ again, again = trialRead (plainItem 25) clear.next := ⟨_, rfl⟩
    have hruns : Reaches Rests roomless [put, read, rewrite, clear, again] again.next :=
      ((((Reaches.start.step (by rw [hput]; rfl)).step (by rw [hread]; rfl)).step
        (by rw [hrewrite]; rfl)).step (by rw [hclear]; rfl)).step (by rw [hagain]; rfl)
    -- what the steps come to
    obtain ⟨row, hrow, hsize⟩ := exists_row_lt put (by rw [hput]; decide +kernel)
    obtain ⟨row', hrow', hsize'⟩ :=
      exists_row_lt rewrite (by rw [hrewrite, hread, hput]; decide +kernel)
    have hfree : read.tiers.memory.size < read.tiers.memory.capacity := by
      rw [hread, hput]
      decide +kernel
    have hfree' : again.tiers.memory.size < again.tiers.memory.capacity := by
      rw [hagain, hclear, hrewrite, hread, hput]
      decide +kernel
    have habsent : (again.tiers.cache.peek (plainItem 26).key.text).isNone = true := by
      rw [hagain, hclear, hrewrite, hread, hput]
      decide +kernel
    have hworks : (roomless.tiers trialSite).Works := ⟨fun op => by cases op <;> rfl, rfl⟩
    have hworks' : rewrite.tiers.Works := by
      rw [hrewrite, hread]
      refine (trialRead (plainItem 25) put.next).works_next ?_
      rw [hput]
      exact (trialPut (plainItem 25) roomless).works_next hworks
    have hsteps : ∀ st ∈ [put, read, rewrite, clear, again],
        st.site = trialSite ∧ st.Follows (trialPlan .smtp) := by
      intro st hst
      simp only [List.mem_cons, List.not_mem_nil, or_false] at hst
      rcases hst with rfl | rfl | rfl | rfl | rfl
      · subst hput
        exact ⟨rfl, follows_trialPut nofun hrow hsize⟩
      · subst hread
        exact ⟨rfl, follows_trialRead (.inr hfree)⟩
      · subst hrewrite
        exact ⟨rfl, follows_trialPut nofun hrow' hsize'⟩
      · subst hclear
        exact ⟨rfl, nofun, nofun⟩
      · subst hagain
        exact ⟨rfl, follows_trialRead (.inr hfree')⟩
    have hserved :
        (Ledger.replay [put, read, rewrite, clear]).served "a" 1 = some (plainItem 25) := by
      simp only [Ledger.replay, List.foldl, Step.row?_eq_some.mp hrow, Step.row?_eq_some.mp hrow']
      generalize read.result.isOk = succeeded
      generalize clear.result.isOk = succeeded'
      rw [hput, hread, hrewrite, hclear]
      rfl
    have hsite : rewrite.site = trialSite := by rw [hrewrite]; rfl
    have hcmd : rewrite.command =
        .put (plainItem 26) (some trialSecret) (List.replicate 12 1) 0 := by
      rw [hrewrite]
      rfl
    have hclear' : clear = ⟨rewrite.site, .clearMemory, rewrite.next⟩ := by
      rw [hsite]
      exact hclear
    have hagain' : again =
        ⟨rewrite.site, .fetch .smtp "a" 1 ⟨none, some trialSecret⟩, clear.next⟩ := by
      rw [hsite]
      exact hagain
    have hanswer := answer_of_put_clear hcmd nofun (by rw [hsite]; rfl) rfl
      (Step.row?_eq_some.mp hrow') hsize' hclear' hagain' hworks' (.inr hfree')
      (Option.isNone_iff_eq_none.mp habsent) nofun
    exact ⟨put, read, rewrite, clear, again, hput, hread, hrewrite, hclear, hagain,
      ⟨fun _ _ => rfl, fun _ _ => rfl, fun _ _ _ _ _ => rfl⟩, hworks, rfl, hruns, hsteps, hserved,
      hanswer⟩
  · obtain ⟨t, ht, -⟩ := (trialRead ⟨"", 1, .smtp "h" 25⟩ trial).request_cases rfl
    exact ⟨_, rfl, isEmpty_trial, ⟨fun op => by cases op <;> rfl, rfl⟩, Reaches.start.step rfl, rfl,
      follows_trialRead (.inr (by decide)), findsRoom_trialRead trivial, rfl,
      (ht.of_invalid rfl).1⟩

end Cluster

end ObjectTiers
