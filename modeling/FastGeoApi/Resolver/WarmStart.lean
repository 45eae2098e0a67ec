import FastGeoApi.Resolver.CacheFiles
import FastGeoApi.Resolver.CacheRuns
import FastGeoApi.Resolver.Freshness

/-!
# Runs that share a cache directory

Any number of calls of `resolve_external_refs` with one cache directory, each from where the one
before has come to, also when that has failed. Where files can be written and the clock is exact, a
document other than `null` that was stored is requested again only when its entry has expired
(`requested_again_expired`). A run that returned is replayed from the files it has left, without a
request, whatever the remote side does by then (`resolveExternalRefs_offline`).
-/

namespace FastGeoApi

/-! ## Several runs -/

/-- What a caller of `resolve_external_refs` chooses. -/
structure Resolution where
  fuel : Nat
  spec : PyVal
  ttl : Int

/-- The session that the uses of documents lead to. -/
def sessionAfter (s : Session) (uses : List DocumentUse) : Session :=
  (uses.getLast?.map DocumentUse.after).getD s

/-- Runs one after the other: the documents that they use, and the session they come to. A run that
raises an exception, or is too deep, leaves the session as its last use has. -/
def resolutions (w : World) (dir : String) : List Resolution → Session → List DocumentUse × Session
  | [], s => ([], s)
  | c :: cs, s =>
    let uses := (tracedResolveExternalRefs w c.fuel c.spec (some dir) c.ttl s).1
    let rest := resolutions w dir cs (sessionAfter { s with documentCache := fun _ => none } uses)
    (uses ++ rest.1, rest.2)

/-- The use has made a request for its document. -/
def DocumentUse.Requests (u : DocumentUse) : Prop := u.after.requests ≠ u.before.requests

theorem Consecutive.sessionAfter_eq {w : World} {dir : Option String} {ttl : Int} {s t : Session}
    {uses : List DocumentUse} (h : Consecutive w dir ttl s uses t) : sessionAfter s uses = t := by
  induction h with
  | nil => rfl
  | @cons _ _ _ _ uses _ _ _ ih =>
    rw [← ih, sessionAfter, sessionAfter, List.getLast?_cons]
    cases uses.getLast? <;> rfl

/-- The uses after a use of a run lead from it to the end of the run. -/
theorem Consecutive.rest {w : World} {dir : Option String} {ttl : Int} {s t : Session}
    {uses : List DocumentUse} (h : Consecutive w dir ttl s uses t) :
    ∀ u ∈ uses, ∃ later, Consecutive w dir ttl u.after later t ∧ ∀ v ∈ later, v ∈ uses := by
  induction h with
  | nil => exact fun u hu => absurd hu List.not_mem_nil
  | cons _ hrest ih =>
    intro u hu
    rcases List.mem_cons.mp hu with rfl | hu
    · exact ⟨_, hrest, fun v hv => List.mem_cons_of_mem _ hv⟩
    · obtain ⟨later, hlater, hsub⟩ := ih u hu
      exact ⟨later, hlater, fun v hv => List.mem_cons_of_mem _ (hsub v hv)⟩

theorem Resolution.consecutive (c : Resolution) (w : World) (dir : String) (s : Session) :
    ∃ t, Consecutive w (some dir) c.ttl { s with documentCache := fun _ => none }
        (tracedResolveExternalRefs w c.fuel c.spec (some dir) c.ttl s).1 t ∧
      ∀ r s', (tracedResolveExternalRefs w c.fuel c.spec (some dir) c.ttl s).2 = some (r, s') →
        s' = t :=
  tracedResolveExternalRefs_consecutive c.fuel c.spec s

/-! ## A stored document -/

section
variable {w : World} {dir : String} {used : Set String} {ttl T : Int} {s s' : Session}
  {url other : String} {doc : PyVal} {n : Nat} {r : Except PyError PyVal}

/-- Since the `n`-th reading of the clock the entry of the document is in its file, or more than `T`
seconds have passed. -/
def Held (w : World) (dir : String) (T : Int) (url : String) (doc : PyVal) (n : Nat)
    (s : Session) : Prop :=
  n < s.readings ∧
    (s.disk (getCachePath w url dir) = some (.ok (cachedData (w.time n) url doc)) ∨
      ∃ e < s.readings, w.time e - w.time n > T)

theorem Held.of_disk (h : Held w dir T url doc n s)
    (hdisk : s'.disk (getCachePath w url dir) = s.disk (getCachePath w url dir))
    (hreadings : s.readings ≤ s'.readings) : Held w dir T url doc n s' := by
  obtain ⟨hn, hentry | ⟨e, he, hpassed⟩⟩ := h
  · exact ⟨Nat.lt_of_lt_of_le hn hreadings, .inl (hdisk.trans hentry)⟩
  · exact ⟨Nat.lt_of_lt_of_le hn hreadings, .inr ⟨e, Nat.lt_of_lt_of_le he hreadings, hpassed⟩⟩

/-- A miss of the file means that its entry has expired. -/
theorem Held.miss (h : Held w dir T url doc n s) (hclock : ∀ m n, m ≤ n → w.time m ≤ w.time n)
    (hexact : w.ExactAges) (hdoc : doc.isNone = false) (hT : T ≤ ttl) {miss : PyVal}
    (hread : readFromCache w url dir ttl s = some (.ok miss, s')) (hmiss : miss.isNone = true) :
    w.time s.readings - w.time n > T := by
  obtain ⟨_, hentry | ⟨e, he, hpassed⟩⟩ := h
  · rw [readFromCache_entry hentry] at hread
    by_cases hexpired : (PyFloat.ofRat (w.time s.readings - w.time n)).exceeds ttl = true
    · have hage := (PyFloat.exceeds_ofRat (hexact s.readings n)).mp hexpired
      have hle : (T : Rat) ≤ ttl := Rat.intCast_le_intCast.mpr hT
      grind
    · rw [if_neg hexpired] at hread
      cases hread
      rw [hdoc] at hmiss
      cases hmiss
  · have hle := hclock e s.readings (Nat.le_of_lt he)
    grind

/-- A use of a document keeps what is held of any document. -/
theorem Held.use (h : Held w dir T url doc n s) (hfiles : w.WritesSucceed)
    (hclock : ∀ m n, m ≤ n → w.time m ≤ w.time n) (hexact : w.ExactAges)
    (hinj : Set.InjOn (fun url => getCachePath w url dir) used) (hdoc : doc.isNone = false)
    (hT : T ≤ ttl) (hurl : url ∈ used) (hother : other ∈ used)
    (hcall : getDocument w other (some dir) ttl s = some (r, s')) : Held w dir T url doc n s' := by
  obtain ⟨r', s'', hget, hstep⟩ := getDocument_call w other dir ttl s
  rw [hcall] at hget
  cases hget
  have hclockOn : ∀ {a s₁}, readFromCache w other dir ttl s = some (a, s₁) → ClockOn s s₁ :=
    readFromCache_clockOn
  cases hstep with
  | memory => exact h
  | broken _ hread | disk _ hread | failed _ hread =>
    obtain ⟨m, hm, rfl⟩ := hclockOn hread
    exact h.of_disk rfl hm
  | fetched _ hread hmiss _ hwrite =>
    obtain ⟨m, hm, rfl⟩ := hclockOn hread
    obtain ⟨_, rfl⟩ := hfiles.step hwrite
    by_cases heq : other = url
    · subst heq
      have hpassed := h.miss hclock hexact hdoc hT hread hmiss
      -- the clock that has shown the expiry has been read before the new entry is stamped
      have hlt : s.readings < m + 1 := Nat.lt_succ_of_le hm
      exact ⟨Nat.lt_trans h.1 hlt, .inr ⟨s.readings, hlt, hpassed⟩⟩
    · have hpath : getCachePath w url dir ≠ getCachePath w other dir := fun hpath =>
        heq (hinj hurl hother hpath).symm
      exact h.of_disk (Session.write_other hpath) (Nat.le_succ_of_le hm)

/-- The file of the URL is an entry that was stamped with the `n`-th reading of the clock. -/
def StampedAt (w : World) (dir url : String) (n : Nat) (s : Session) : Prop :=
  ∃ doc, s.disk (getCachePath w url dir) = some (.ok (cachedData (w.time n) url doc))

/-- A use that has fetched a document leaves its entry behind. -/
theorem held_of_fetched (hfiles : w.WritesSucceed)
    (hcall : getDocument w url (some dir) ttl s = some (.ok doc, s'))
    (hrequests : s'.requests ≠ s.requests) (hdoc : doc.isNone = false) :
    ∃ n doc', StampedAt w dir url n s' ∧ doc'.isNone = false ∧ Held w dir T url doc' n s' := by
  obtain ⟨r', s'', hget, hstep⟩ := getDocument_call w url dir ttl s
  rw [hcall] at hget
  cases hget
  generalize hr : (Except.ok doc : Except PyError PyVal) = r at hstep
  cases hstep with
  | memory => exact absurd rfl hrequests
  | broken => cases hr
  | disk _ hread =>
    obtain ⟨m, _, rfl⟩ := readFromCache_clockOn hread
    exact absurd rfl hrequests
  | failed => cases hr
  | @fetched _ _ new _ _ _ hread _ _ hwrite =>
    obtain ⟨m, hm, rfl⟩ := readFromCache_clockOn hread
    obtain ⟨rfl, rfl⟩ := hfiles.step hwrite
    cases htrip : jsonRoundTrip new with
    | error e => simp [htrip, Except.map] at hr
    | ok doc' =>
      simp only [htrip, Except.map, Except.ok.injEq] at hr
      subst hr
      have hdoc' : doc'.isNone = false := by
        by_contra hnone
        rw [Bool.not_eq_false] at hnone
        rw [jsonRoundTrip_isNone htrip hnone, hnone] at hdoc
        cases hdoc
      have hfile := @cacheFile_of_ok (w.time m) url _ _ htrip
      refine ⟨m, doc', ⟨doc', ?_⟩, hdoc', Nat.lt_succ_self m, .inl ?_⟩ <;>
      · rw [Session.write_self, ← hfile]
        rfl

theorem Consecutive.held {t : Session} {uses : List DocumentUse}
    (h : Consecutive w (some dir) ttl s uses t) (hs : Held w dir T url doc n s)
    (hfiles : w.WritesSucceed) (hclock : ∀ m n, m ≤ n → w.time m ≤ w.time n)
    (hexact : w.ExactAges)
    (hinj : Set.InjOn (fun url => getCachePath w url dir) used) (hdoc : doc.isNone = false)
    (hT : T ≤ ttl) (hurl : url ∈ used) (hused : ∀ u ∈ uses, u.url ∈ used) :
    (∀ u ∈ uses, Held w dir T url doc n u.before) ∧ Held w dir T url doc n t := by
  induction h with
  | nil => exact ⟨fun u hu => absurd hu List.not_mem_nil, hs⟩
  | cons hcall _ ih =>
    have hafter := hs.use hfiles hclock hexact hinj hdoc hT hurl (hused _ List.mem_cons_self) hcall
    obtain ⟨hrest, hend⟩ := ih hafter fun u hu => hused u (List.mem_cons_of_mem _ hu)
    refine ⟨fun u hu => ?_, hend⟩
    rcases List.mem_cons.mp hu with rfl | hu
    · exact hs
    · exact hrest u hu

/-- What is held of a document is held in all later runs. -/
theorem resolutions_held {cs : List Resolution} (hs : Held w dir T url doc n s)
    (hfiles : w.WritesSucceed) (hclock : ∀ m n, m ≤ n → w.time m ≤ w.time n)
    (hexact : w.ExactAges)
    (hinj : Set.InjOn (fun url => getCachePath w url dir) used) (hdoc : doc.isNone = false)
    (hT : ∀ c ∈ cs, T ≤ c.ttl) (hurl : url ∈ used)
    (hused : ∀ u ∈ (resolutions w dir cs s).1, u.url ∈ used) :
    ∀ v ∈ (resolutions w dir cs s).1, Held w dir T url doc n v.before ∧
      ∃ ttl, T ≤ ttl ∧ getDocument w v.url (some dir) ttl v.before = some (v.answer, v.after) := by
  induction cs generalizing s with
  | nil => exact fun v hv => absurd hv List.not_mem_nil
  | cons c cs ih =>
    intro v hv
    obtain ⟨t, hconsec, _⟩ := c.consecutive w dir s
    have hstart : Held w dir T url doc n { s with documentCache := fun _ => none } := hs
    have hheld := hconsec.held hstart hfiles hclock hexact hinj hdoc (hT c List.mem_cons_self) hurl
      fun u hu => hused u (List.mem_append_left _ hu)
    rcases List.mem_append.mp hv with hv | hv
    · exact ⟨hheld.1 v hv, c.ttl, hT c List.mem_cons_self, hconsec.call v hv⟩
    · rw [← hconsec.sessionAfter_eq] at hheld
      exact ih hheld.2 (fun c hc => hT c (List.mem_cons_of_mem _ hc))
        (fun u hu => hused u (List.mem_append_right _ hu)) v hv

/-- The second use requests the document of the first, which has fetched it and stored it, only when
more than `T` seconds have passed since it was stored; `null` is requested each time. -/
def OnlyExpired (w : World) (dir : String) (T : Int) (u v : DocumentUse) : Prop :=
  v.url = u.url → u.Requests → (∃ doc, u.answer = .ok doc ∧ doc.isNone = false) → v.Requests →
    ∃ n, StampedAt w dir u.url n u.after ∧ w.time v.before.readings - w.time n > T

theorem Held.onlyExpired {v : DocumentUse} (h : Held w dir T v.url doc n v.before)
    (hclock : ∀ m n, m ≤ n → w.time m ≤ w.time n) (hexact : w.ExactAges)
    (hdoc : doc.isNone = false) (hT : T ≤ ttl)
    (hcall : getDocument w v.url (some dir) ttl v.before = some (v.answer, v.after))
    (hrequests : v.Requests) : w.time v.before.readings - w.time n > T := by
  obtain ⟨r, s', hget, hstep⟩ := getDocument_call w v.url dir ttl v.before
  rw [hcall, Option.some.injEq, Prod.mk.injEq] at hget
  obtain ⟨rfl, rfl⟩ := hget
  have hquiet : ∀ {a s₁}, readFromCache w v.url dir ttl v.before = some (a, s₁) →
      s₁.requests = v.before.requests := by
    intro a s₁ hread
    obtain ⟨m, _, rfl⟩ := readFromCache_clockOn hread
    rfl
  generalize hafter : v.after = after at hstep
  rw [DocumentUse.Requests, hafter] at hrequests
  generalize v.answer = answer at hstep
  cases hstep with
  | memory => exact absurd rfl hrequests
  | broken _ hread => exact absurd (hquiet hread) hrequests
  | disk _ hread => exact absurd (hquiet hread) hrequests
  | failed _ hread hmiss => exact h.miss hclock hexact hdoc hT hread hmiss
  | fetched _ hread hmiss => exact h.miss hclock hexact hdoc hT hread hmiss

theorem Consecutive.onlyExpired {t : Session} {uses : List DocumentUse}
    (h : Consecutive w (some dir) ttl s uses t) (hfiles : w.WritesSucceed)
    (hclock : ∀ m n, m ≤ n → w.time m ≤ w.time n) (hexact : w.ExactAges)
    (hinj : Set.InjOn (fun url => getCachePath w url dir) used) (hT : T ≤ ttl)
    (hused : ∀ u ∈ uses, u.url ∈ used) : uses.Pairwise (OnlyExpired w dir T) := by
  induction h with
  | nil => exact .nil
  | cons hcall hrest ih =>
    have htail := fun u hu => hused u (List.mem_cons_of_mem _ hu)
    refine .cons (fun v hv hurl hrequests hanswer hagain => ?_) (ih htail)
    obtain ⟨doc, hanswer, hdoc⟩ := hanswer
    simp only at hanswer hurl
    subst hanswer
    obtain ⟨n, doc', hstamp, hdoc', hheld⟩ := held_of_fetched (T := T) hfiles hcall hrequests hdoc
    have hkept := hrest.held hheld hfiles hclock hexact hinj hdoc' hT (hused _ List.mem_cons_self)
      htail
    have hbefore := hkept.1 v hv
    rw [← hurl] at hbefore
    exact ⟨n, hstamp, hbefore.onlyExpired hclock hexact hdoc' hT (hrest.call v hv) hagain⟩

end

/-- In a sequence of runs a stored document is requested again only when the time to live has
passed since it was stored, however the runs in between have ended. -/
theorem requested_again_expired (w : World) (hfiles : w.WritesSucceed) (dir : String)
    (used : Set String) (hinj : Set.InjOn (fun url => getCachePath w url dir) used)
    (hclock : ∀ m n, m ≤ n → w.time m ≤ w.time n) (hexact : w.ExactAges) (T : Int)
    (cs : List Resolution)
    (hT : ∀ c ∈ cs, T ≤ c.ttl) (s : Session)
    (hused : ∀ u ∈ (resolutions w dir cs s).1, u.url ∈ used) :
    (resolutions w dir cs s).1.Pairwise (OnlyExpired w dir T) := by
  induction cs generalizing s with
  | nil => exact .nil
  | cons c cs ih =>
    obtain ⟨t, hconsec, _⟩ := c.consecutive w dir s
    have hhead := fun u hu => hused u (List.mem_append_left _ hu)
    have htail := fun u hu => hused u (List.mem_append_right _ hu)
    have hcs := fun c' hc => hT c' (List.mem_cons_of_mem _ hc)
    have hthis := hconsec.onlyExpired hfiles hclock hexact hinj (hT c List.mem_cons_self) hhead
    refine List.pairwise_append.mpr ⟨hthis, ih hcs _ htail, fun u hu v hv => ?_⟩
    intro hurl hrequests ⟨doc, hanswer, hdoc⟩ hagain
    have hcall := hconsec.call u hu
    rw [hanswer] at hcall
    obtain ⟨n, doc', hstamp, hdoc', hheld⟩ := held_of_fetched (T := T) hfiles hcall hrequests hdoc
    obtain ⟨later, hlater, hsub⟩ := hconsec.rest u hu
    have hend := (hlater.held hheld hfiles hclock hexact hinj hdoc' (hT c List.mem_cons_self)
      (hhead u hu) fun v hv => hhead v (hsub v hv)).2
    rw [← hconsec.sessionAfter_eq] at hend
    obtain ⟨hbefore, ttl, hle, hcall'⟩ :=
      resolutions_held hend hfiles hclock hexact hinj hdoc' hcs (hhead u hu) htail v hv
    rw [← hurl] at hbefore
    exact ⟨n, hstamp, hbefore.onlyExpired hclock hexact hdoc' hle hcall' hagain⟩

def lineSpec : PyVal := .dict [(.str "$ref", .str lineUrl)]

/-- A run that looks the document up, with the default time to live. -/
def lineRun : Resolution := { fuel := 3, spec := lineSpec, ttl := 3600 }

theorem lineRuns_urls :
    (resolutions lineWorld "/cache" [lineRun, lineRun] Session.start).1.map DocumentUse.url =
      [lineUrl, lineUrl] := by decide +kernel

theorem lineRuns_onlyExpired :
    (resolutions lineWorld "/cache" [lineRun, lineRun] Session.start).1.Pairwise
      (OnlyExpired lineWorld "/cache" 3600) := by
  refine requested_again_expired lineWorld lineWorld_files "/cache" {lineUrl}
    (Set.injOn_singleton _ _) (fun _ _ => lineWorld_clock) lineWorld_exactAges 3600 _ ?_ _
    fun u hu => ?_
  · intro c hc
    simp only [List.mem_cons, List.not_mem_nil, or_false, or_self] at hc
    exact hc ▸ Int.le_refl 3600
  · have hurl := List.mem_map_of_mem (f := DocumentUse.url) hu
    rw [lineRuns_urls] at hurl
    simpa using hurl

/-! ## Replay -/

theorem cacheKept_trans (s s' s'' : Session) (h : CacheKept s s') (h' : CacheKept s' s'') :
    CacheKept s s'' := h.trans h'

section
variable (M : String → Option PyVal) (Inv : Session → Prop)

/-- The session has no document in memory but those of `M`. -/
def RemembersOnly (s : Session) : Prop :=
  ∀ url doc, s.documentCache url = some doc → M url = some doc

/-- Where the first computation returns and has used the documents of `M` only, the second returns
the same from any session with the invariant. -/
def Replays (x x' : Run α) : Prop :=
  ∀ s a s₁ t, x s = some (.ok a, s₁) → RemembersOnly M s₁ → Inv t →
    ∃ t₁, x' t = some (.ok a, t₁) ∧ Inv t₁

variable {M Inv}

theorem RemembersOnly.of_kept {s s' : Session} (h : RemembersOnly M s') (hkept : CacheKept s s') :
    RemembersOnly M s :=
  fun url doc hmem => h url doc (hkept url doc hmem)

theorem Replays.pure {a : α} : Replays M Inv (Pure.pure a : Run α) (Pure.pure a) := by
  intro s b s₁ t h _ ht
  obtain ⟨rfl, rfl⟩ := Run.pure_eq_ok.mp h
  exact ⟨t, rfl, ht⟩

theorem Replays.lift {x : Except PyError α} : Replays M Inv (Run.lift x) (Run.lift x) := by
  intro s b s₁ t h _ ht
  cases h
  exact ⟨t, rfl, ht⟩

theorem Replays.bind {x x' : Run α} {f f' : α → Run β} (hx : Replays M Inv x x')
    (hf : ∀ a, Replays M Inv (f a) (f' a)) (hkept : ∀ a, Run.Within CacheKept (f a)) :
    Replays M Inv (x >>= f) (x' >>= f') := by
  intro s b s₂ t h hM ht
  obtain ⟨a, s₁, hxs, hfs⟩ := Run.bind_eq_ok.mp h
  obtain ⟨t₁, hxt, ht₁⟩ := hx s a s₁ t hxs (hM.of_kept (hkept a s₁ _ s₂ hfs)) ht
  obtain ⟨t₂, hft, ht₂⟩ := hf a s₁ b s₂ t₁ hfs hM ht₁
  exact ⟨t₂, Run.bind_eq_ok.mpr ⟨a, t₁, hxt, hft⟩, ht₂⟩

section
variable {f f' : PyVal → Run PyVal} (hf : ∀ v, Replays M Inv (f v) (f' v))
  (hkept : ∀ v, Run.Within CacheKept (f v))
include hf hkept

theorem Replays.mapVals (items : List (PyKey × PyVal)) :
    Replays M Inv (Run.mapVals f items) (Run.mapVals f' items) := by
  induction items with
  | nil => exact .pure
  | cons kv items ih =>
    have hrest : Run.Within CacheKept (Run.mapVals f items) :=
      .mapVals CacheKept.refl cacheKept_trans hkept items
    refine .bind (hf kv.2) (fun v => .bind ih (fun _ => .pure) fun _ => .pure CacheKept.refl) ?_
    exact fun v => .bind cacheKept_trans hrest fun _ => .pure CacheKept.refl

theorem Replays.mapList (items : List PyVal) :
    Replays M Inv (Run.mapList f items) (Run.mapList f' items) := by
  induction items with
  | nil => exact .pure
  | cons v items ih =>
    have hrest : Run.Within CacheKept (Run.mapList f items) :=
      .mapList CacheKept.refl cacheKept_trans hkept items
    refine .bind (hf v) (fun v => .bind ih (fun _ => .pure) fun _ => .pure CacheKept.refl) ?_
    exact fun v => .bind cacheKept_trans hrest fun _ => .pure CacheKept.refl

end
end

section
variable {w w' : World} {dir dir' : Option String} {ttl ttl' : Int}
  {M : String → Option PyVal} {Inv : Session → Prop}

theorem getDocument_kept (url : String) : Run.Within CacheKept (getDocument w url dir ttl) :=
  fun _ _ _ h => (getDocument_effect h).kept

theorem resolveObject_kept (fuel : Nat) (base : Option String) (v : PyVal) :
    Run.Within CacheKept (resolveObject w dir ttl fuel base v) :=
  resolveObject_within CacheKept.refl cacheKept_trans getDocument_kept fuel base v

/-- The documents of `M` are served in sessions with the invariant. -/
def Supplies (w : World) (dir : Option String) (ttl : Int) (M : String → Option PyVal)
    (Inv : Session → Prop) : Prop :=
  ∀ url doc s, M url = some doc → Inv s →
    ∃ s', getDocument w url dir ttl s = some (.ok doc, s') ∧ Inv s'

theorem getDocument_replays (hsupplies : Supplies w' dir' ttl' M Inv) (url : String) :
    Replays M Inv (getDocument w url dir ttl) (getDocument w' url dir' ttl') := by
  intro s doc s₁ t h hM ht
  exact hsupplies url doc t (hM url doc ((getDocument_effect h).stored rfl)) ht

theorem resolveRef_replays (hsupplies : Supplies w' dir' ttl' M Inv) (ref : String)
    (base : Option String) :
    Replays M Inv (resolveRef w ref base dir ttl) (resolveRef w' ref base dir' ttl') := by
  have hnav : ∀ (p : String × String) doc, Run.Within CacheKept (do
      let result ← Run.lift (navigateToFragment doc p.2)
      return (result, p.1)) := fun p doc =>
    .bind cacheKept_trans (.lift CacheKept.refl) fun _ => .pure CacheKept.refl
  have hdoc : ∀ url : String, Replays M Inv
      (if url ≠ "" then getDocument w url dir ttl else pure (.dict []))
      (if url ≠ "" then getDocument w' url dir' ttl' else pure (.dict [])) := by
    intro url
    by_cases hurl : url ≠ ""
    · rw [if_pos hurl, if_pos hurl]
      exact getDocument_replays hsupplies url
    · rw [if_neg hurl, if_neg hurl]
      exact .pure
  have hget : ∀ url : String, Run.Within CacheKept
      (if url ≠ "" then getDocument w url dir ttl else pure (.dict [])) := by
    intro url
    split
    · exact getDocument_kept url
    · exact .pure CacheKept.refl
  refine .bind .lift (fun p => .bind (hdoc p.1) (fun doc => ?_) (hnav p)) fun p => ?_
  · exact .bind .lift (fun _ => .pure) fun _ => .pure CacheKept.refl
  · exact .bind cacheKept_trans (hget p.1) (hnav p)

theorem resolveObject_replays (hsupplies : Supplies w' dir' ttl' M Inv) (fuel : Nat)
    (base : Option String) (v : PyVal) :
    Replays M Inv (resolveObject w dir ttl fuel base v)
      (resolveObject w' dir' ttl' fuel base v) := by
  induction fuel generalizing base v with
  | zero => exact fun _ _ _ _ h => nomatch h
  | succ fuel ih =>
    cases v with
    | dict items =>
      unfold resolveObject
      cases dictCase items with
      | external ref sole isExt =>
        simp only [sole, isExt, if_true]
        exact .bind (resolveRef_replays hsupplies ref base) (fun p => ih (some p.2) p.1)
          fun p => resolveObject_kept fuel (some p.2) p.1
      | keep v sole keep =>
        cases v with
        | str ref =>
          simp only [sole, keep ref rfl, Bool.false_eq_true, if_false]
          exact .pure
        | _ =>
          simp only [sole]
          exact .pure
      | descend sole =>
        simp only [sole]
        exact .bind (.mapVals (ih base) (resolveObject_kept fuel base) items) (fun _ => .pure)
          fun _ => .pure CacheKept.refl
    | list xs =>
      unfold resolveObject
      exact .bind (.mapList (ih base) (resolveObject_kept fuel base) xs) (fun _ => .pure)
        fun _ => .pure CacheKept.refl
    | _ => exact .pure

end

/-! ## The files of a run that returned -/

/-- The document and the time stamp that `_read_from_cache` finds in a file. -/
def entryDocument (data : List (PyKey × PyVal)) : PyVal := (PyVal.get data "document").getD .none

def entryTimestamp (data : List (PyKey × PyVal)) : PyVal :=
  (PyVal.get data "timestamp").getD (.int 0)

theorem cachedData_entry (timestamp : Rat) (url : String) (document : PyVal) : ∃ data,
    cachedData timestamp url document = .dict data ∧ entryDocument data = document :=
  ⟨_, rfl, rfl⟩

/-- Every document in memory is the one of its cache file. -/
def Backed (w : World) (dir : String) (s : Session) : Prop :=
  ∀ url doc, s.documentCache url = some doc → doc.isNone = false ∧
    ∃ data, s.disk (getCachePath w url dir) = some (.ok (.dict data)) ∧ entryDocument data = doc

/-- The files of the used URLs can be read without being too old, whenever that is. -/
def Unexpired (w : World) (dir : String) (used : Set String) (ttl : Int)
    (disk : String → Option CacheFile) : Prop :=
  ∀ url ∈ used, ∀ data, disk (getCachePath w url dir) = some (.ok (.dict data)) →
    ∀ n, isExpired (w.time n) (entryTimestamp data) ttl = .ok false

section
variable {w : World} {dir url : String} {used : Set String} {ttl : Int} {s s' : Session}
  {doc : PyVal} {data : List (PyKey × PyVal)}

theorem readFromCache_some (hread : readFromCache w url dir ttl s = some (.ok doc, s'))
    (hdoc : doc.isNone = false) : ∃ data,
      s.disk (getCachePath w url dir) = some (.ok (.dict data)) ∧ entryDocument data = doc := by
  unfold readFromCache at hread
  simp only [Run.bind_apply, Run.session] at hread
  rcases hfile : s.disk (getCachePath w url dir) with _ | e | v
  · simp only [hfile] at hread
    cases hread
    cases hdoc
  · simp only [hfile] at hread
    split at hread
    · cases hread
      cases hdoc
    · cases hread
  · simp only [hfile] at hread
    cases v with
    | dict data =>
      obtain ⟨_, _, _, hrest⟩ := Run.bind_eq_ok.mp hread
      obtain ⟨expired, _, _, hrest⟩ := Run.bind_eq_ok.mp hrest
      obtain ⟨hdocument, _⟩ := Run.pure_eq_ok.mp hrest
      cases expired with
      | true =>
        rw [if_pos rfl] at hdocument
        subst hdocument
        cases hdoc
      | false => exact ⟨data, rfl, hdocument⟩
    | _ => cases hread

theorem readFromCache_unexpired
    (hfile : s.disk (getCachePath w url dir) = some (.ok (.dict data)))
    (hfresh : isExpired (w.time s.readings) (entryTimestamp data) ttl = .ok false) :
    readFromCache w url dir ttl s =
      some (.ok (entryDocument data), { s with readings := s.readings + 1 }) := by
  unfold readFromCache
  unfold entryTimestamp at hfresh
  simp only [Run.bind_apply, Run.session, hfile, readClock, Run.update, Run.lift, Run.pure_apply,
    hfresh]
  rfl

/-- Documents stay in memory, and stay backed as long as the URLs are used ones. -/
def KeepsBacked (w : World) (dir : String) (used : Set String) (s s' : Session) : Prop :=
  (∀ url, s.documentCache url ≠ none → s'.documentCache url ≠ none) ∧
    (UsesOnly used s' → Backed w dir s → Backed w dir s')

theorem KeepsBacked.refl (s : Session) : KeepsBacked w dir used s s := ⟨fun _ h => h, fun _ h => h⟩

theorem KeepsBacked.trans (s s' s'' : Session) (h : KeepsBacked w dir used s s')
    (h' : KeepsBacked w dir used s' s'') : KeepsBacked w dir used s s'' := by
  refine ⟨fun url hurl => h'.1 url (h.1 url hurl), fun hused hs => h'.2 hused (h.2 ?_ hs)⟩
  exact fun url hurl => hused url (h'.1 url hurl)

theorem getDocument_keepsBacked (hfiles : w.WritesSucceed)
    (hinj : Set.InjOn (fun url => getCachePath w url dir) used)
    (hdocs : ∀ n url doc, w.fetched n url = .ok doc → JsonNative doc ∧ doc.isNone = false)
    (url : String) : Run.Within (KeepsBacked w dir used) (getDocument w url (some dir) ttl) := by
  intro s r s' h
  refine ⟨fun url' hurl' => ?_, fun hused hs => ?_⟩
  · obtain ⟨doc, hmem⟩ := Option.ne_none_iff_exists'.mp hurl'
    rw [(getDocument_effect h).kept url' doc hmem]
    exact Option.some_ne_none doc
  obtain ⟨r', s'', hget, hstep⟩ := getDocument_call w url dir ttl s
  rw [h] at hget
  cases hget
  cases hstep with
  | memory => exact hs
  | broken _ hread | failed _ hread =>
    obtain ⟨n, _, rfl⟩ := readFromCache_clockOn hread
    exact hs
  | @disk _ doc _ hread hdoc =>
    obtain ⟨n, _, rfl⟩ := readFromCache_clockOn hread
    intro other doc' hmem
    by_cases heq : other = url
    · subst heq
      rw [Session.remember_self, Option.some.injEq] at hmem
      subst hmem
      obtain ⟨data, hfile, hdata⟩ := readFromCache_some hread hdoc
      exact ⟨hdoc, data, hfile, hdata⟩
    · rw [Session.remember_other heq] at hmem
      exact hs other doc' hmem
  | @fetched s₁ _ doc _ _ _ hread _ hfetched hwrite =>
    obtain ⟨n, _, rfl⟩ := readFromCache_clockOn hread
    obtain ⟨_, rfl⟩ := hfiles.step hwrite
    obtain ⟨hnative, hdoc⟩ := hdocs _ _ _ hfetched
    intro other doc' hmem
    have hother : other ∈ used := hused other (by rw [hmem]; exact Option.some_ne_none doc')
    have hurl : url ∈ used := hused url (by simp)
    rw [Session.write_documentCache] at hmem
    by_cases heq : other = url
    · subst heq
      rw [Session.remember_self, Option.some.injEq] at hmem
      subst hmem
      obtain ⟨data, hdata, hdocument⟩ := cachedData_entry (w.time n) other doc
      refine ⟨hdoc, data, ?_, hdocument⟩
      rw [Session.write_self, cacheFile_of_ok hnative, ← hdata]
      rfl
    · rw [Session.remember_other heq] at hmem
      have hpath : getCachePath w other dir ≠ getCachePath w url dir := fun hpath =>
        heq (hinj hother hurl hpath)
      obtain ⟨hsome, data, hfile, hdata⟩ := hs other doc' hmem
      exact ⟨hsome, data, (Session.write_other hpath).trans hfile, hdata⟩

/-- From files that are not too old the documents are served without a request. -/
theorem supplies_of_backed {M : String → Option PyVal} {disk : String → Option CacheFile}
    {requests : List String} (hused : ∀ url, M url ≠ none → url ∈ used)
    (hbacked : ∀ url doc, M url = some doc → doc.isNone = false ∧ ∃ data,
      disk (getCachePath w url dir) = some (.ok (.dict data)) ∧ entryDocument data = doc)
    (hfresh : Unexpired w dir used ttl disk) :
    Supplies w (some dir) ttl M fun t =>
      RemembersOnly M t ∧ t.disk = disk ∧ t.requests = requests := by
  intro url doc s hM ⟨hmemory, hdisk, hrequests⟩
  unfold getDocument
  simp only [Run.bind_apply, Run.session]
  cases hmem : s.documentCache url with
  | some doc' =>
    have hsame := hmemory url doc' hmem
    rw [hM, Option.some.injEq] at hsame
    subst hsame
    exact ⟨s, rfl, hmemory, hdisk, hrequests⟩
  | none =>
    obtain ⟨hdoc, data, hfile, hdata⟩ := hbacked url doc hM
    have hurl : url ∈ used := hused url (by rw [hM]; exact Option.some_ne_none doc)
    have hread := readFromCache_unexpired (s := s) (hdisk ▸ hfile)
      (hfresh url hurl data hfile s.readings)
    rw [hdata] at hread
    simp only [Run.bind_apply, getDocument.cached, hread, hdoc, Bool.false_eq_true, if_false]
    refine ⟨{ s with readings := s.readings + 1 }.remember url doc, rfl, fun other doc' h => ?_,
      hdisk, hrequests⟩
    by_cases heq : other = url
    · subst heq
      rw [Session.remember_self, Option.some.injEq] at h
      exact h ▸ hM
    · rw [Session.remember_other heq] at h
      exact hmemory other doc' h

end

/-- A run that returned, and could write its files, is repeated by a later process from the files
alone: with any remote side (one that fails every request, say), as long as no entry has expired,
the later run returns the same, makes no request and leaves the files as they are. -/
theorem resolveExternalRefs_offline (w w' : World) (hfiles : w.WritesSucceed)
    (hsha : w'.sha256 = w.sha256) (dir : String) (used : Set String)
    (hinj : Set.InjOn (fun url => getCachePath w url dir) used)
    (hdocs : ∀ n url doc, w.fetched n url = .ok doc → JsonNative doc ∧ doc.isNone = false)
    (fuel : Nat) (spec R : PyVal) (ttl ttl' : Int) (s s₁ t : Session)
    (hrun : resolveExternalRefs w fuel spec (some dir) ttl s = some (.ok R, s₁))
    (hused : UsesOnly used s₁) (hdisk : t.disk = s₁.disk)
    (hfresh : Unexpired w' dir used ttl' s₁.disk) :
    ∃ t₁, resolveExternalRefs w' fuel spec (some dir) ttl' t = some (.ok R, t₁) ∧
      t₁.requests = t.requests ∧ t₁.disk = t.disk := by
  have hpath : ∀ url, getCachePath w' url dir = getCachePath w url dir := fun url => by
    unfold getCachePath
    rw [hsha]
  have hkeeps := resolveObject_within KeepsBacked.refl KeepsBacked.trans
    (getDocument_keepsBacked hfiles hinj hdocs) fuel none spec _ _ _ hrun
  have hbacked : Backed w dir s₁ := hkeeps.2 hused fun _ _ h => nomatch h
  have hsupplies : Supplies w' (some dir) ttl' s₁.documentCache fun t₁ =>
      RemembersOnly s₁.documentCache t₁ ∧ t₁.disk = s₁.disk ∧ t₁.requests = t.requests :=
    supplies_of_backed hused (fun url doc h => hpath url ▸ hbacked url doc h) hfresh
  obtain ⟨t₁, hrun', _, hdisk', hrequests'⟩ :=
    resolveObject_replays hsupplies fuel none spec _ R s₁ { t with documentCache := fun _ => none }
      hrun (fun _ _ h => h) ⟨fun _ _ h => (nomatch h), hdisk, rfl⟩
  exact ⟨t₁, hrun', hrequests', hdisk'.trans hdisk.symm⟩

/-- The same files where no host answers, a while later. -/
def lineOffline : World :=
  { lineWorld with get := fun _ url => .error ⟨.other "ConnectError", url⟩, time := fun _ => 100 }

theorem lineOffline_unexpired : Unexpired lineOffline "/cache" {lineUrl} 3600 lineSession.disk := by
  intro url hurl data hfile n
  obtain rfl := Set.mem_singleton_iff.mp hurl
  have hentry : lineSession.disk (getCachePath lineOffline lineUrl "/cache") =
      some (.ok (cachedData (lineWorld.time 0) lineUrl lineDocument)) := rfl
  rw [hentry] at hfile
  cases hfile
  have hfloat : IsBinary64 (100 - lineWorld.time 0) := by
    have htime : lineWorld.time 0 = 0 := rfl
    rw [htime, sub_zero]
    exact isBinary64_intCast (z := 100) (by decide)
  have hage : ¬(PyFloat.ofRat (100 - lineWorld.time 0)).exceeds 3600 = true := by
    rw [PyFloat.exceeds_ofRat hfloat]
    decide +kernel
  exact congrArg Except.ok (Bool.eq_false_iff.mpr hage)

theorem lineWorld_documents (n : Nat) (url : String) (doc : PyVal)
    (h : lineWorld.fetched n url = .ok doc) : JsonNative doc ∧ doc.isNone = false := by
  have hnative := lineWorld_native n url doc h
  have hdoc : Store.documents [(lineUrl, lineDocument)] url = .ok doc :=
    (congrFun (Store.world_document [(lineUrl, lineDocument)]) url).symm.trans h
  rw [Store.documents] at hdoc
  split at hdoc
  · rename_i doc' hlookup
    obtain ⟨_, _, hstore, _⟩ := List.lookup_eq_some_iff.mp hlookup
    cases hdoc
    have hmem : (url, doc) ∈ [(lineUrl, lineDocument)] := by
      rw [hstore]
      simp
    obtain ⟨_, rfl⟩ := Prod.mk.inj (List.mem_singleton.mp hmem)
    exact ⟨hnative, rfl⟩
  · cases hdoc

/-- A process that is started after the run, with the files that are there. -/
def restarted : Session := { Session.start with disk := lineSession.disk }

theorem lineSpec_offline : ∃ t,
    resolveExternalRefs lineOffline 3 lineSpec (some "/cache") 3600 restarted =
      some (.ok lineDocument, t) ∧ t.requests = [] ∧ t.disk = lineSession.disk := by
  have hrun : resolveExternalRefs lineWorld 3 lineSpec (some "/cache") 0 Session.start =
      some (.ok lineDocument, lineSession) := rfl
  have hused : UsesOnly {lineUrl} lineSession := by
    intro url hurl
    by_contra hne
    rw [lineSession, Session.write_documentCache, Session.remember_other hne] at hurl
    exact hurl rfl
  exact resolveExternalRefs_offline lineWorld lineOffline lineWorld_files rfl "/cache" {lineUrl}
    (Set.injOn_singleton _ _) lineWorld_documents 3 lineSpec lineDocument 0 3600 Session.start
    lineSession restarted hrun hused rfl lineOffline_unexpired

end FastGeoApi
