import CoverageAccess.Proofs.Cache.Exclusion
/-!
# One fetch for a key

Look-ups of a key without a file, none of which is abandoned, go through three phases (`Phase`):
nobody has asked the source, one of them is asking while all others wait, or the answer is kept. That
the one who asks is alone comes from exclusion. So the source is asked once, and all look-ups are
answered with the document that it had.
-/

namespace CoverageAccess

open Markup Metadata

namespace Lookup

/-- The look-up has not read yet. -/
def IsEarly (l : Lookup) : Prop :=
  l.stage = .waiting ∨ l.stage = .reading

/-- The look-up asks the source, or has a document from it that is not kept yet. -/
def IsAsking (l : Lookup) : Prop :=
  l.stage = .fetching ∨ ∃ body root, l.stage = .storing body root ∧ decode body = .ok root

/-- The look-up has been answered with a document. -/
def IsServed (root : Element) (l : Lookup) : Prop :=
  (l.stage = .finished ∨ l.stage = .leaving ∨ l.stage = .gone) ∧
    l.answer = some (.ok (named l.id root))

variable {l : Lookup}

theorem IsEarly.isLive (h : l.IsEarly) : l.isLive = true := by
  obtain h | h := h <;> simp [Lookup.isLive, h, Stage.isWaiting, Stage.isHolding]

theorem IsAsking.isHolding (h : l.IsAsking) : l.stage.isHolding = true := by
  obtain h | ⟨body, root, h, -⟩ := h <;> rw [h] <;> rfl

end Lookup

namespace Lookups

/-- How far the look-ups of a key have come. -/
inductive Phase (k : String) (c : Cache) (arrived : List Lookup) : Prop
  | untouched (vacant : c.slots k = .vacant) (unasked : c.fetches k = [])
      (early : ∀ o ∈ arrived, o.key = k → o.IsEarly)
  | asking {i : Nat} {l : Lookup} (here : arrived[i]? = some l) (hkey : l.key = k)
      (asks : l.IsAsking) (once : c.fetches k = [l.address])
      (others : ∀ (j : Nat) (o : Lookup), arrived[j]? = some o → o.key = k → j ≠ i →
        o.stage = .waiting)
  | kept {body : List UInt8} {root : Element} (file : c.slots k = .file body)
      (fit : decode body = .ok root) (once : ∃ o ∈ arrived, o.key = k ∧ c.fetches k = [o.address])
      (done : ∀ o ∈ arrived, o.key = k → o.IsEarly ∨ o.IsServed root)

variable {source : Source} {s t : Lookups} {l l' : Lookup} {i : Nat} {u : Turn} {c : Cache}
  {locks : Table Nat} {k : String} {arrived : List Lookup} {moves : List (Source × Move)}

theorem forall_mem_set {P : Lookup → Prop} (h : ∀ o ∈ arrived, o.key = k → P o)
    (hnew : l'.key = k → P l') : ∀ o ∈ arrived.set i l', o.key = k → P o := by
  intro o ho
  obtain ho | rfl := List.mem_or_eq_of_mem_set ho
  · exact h o ho
  · exact hnew

/-- That the source was asked for the address of one look-up stays true when a look-up goes on. -/
theorem exists_fetched_set (hl : s.arrived[i]? = some l) (hdataset : l'.dataset = l.dataset)
    (once : ∃ o ∈ s.arrived, o.key = k ∧ c.fetches k = [o.address]) :
    ∃ o ∈ s.arrived.set i l', o.key = k ∧ c.fetches k = [o.address] := by
  obtain ⟨o, ho, hkey, honce⟩ := once
  obtain ⟨j, hj⟩ := List.getElem?_of_mem ho
  by_cases hij : i = j
  · subst hij
    obtain rfl := Option.some.inj (hl.symm.trans hj)
    have haddress : l'.address = l.address := congrArg address hdataset
    exact ⟨l', List.mem_set (List.getElem?_eq_some_iff.1 hl).1 _,
      (congrArg key haddress).trans hkey, by rw [honce, haddress]⟩
  · exact ⟨o, List.mem_of_getElem? ((List.getElem?_set_ne hij).trans hj), hkey, honce⟩

/-- While another look-up of its key holds the lock, all that a waiting one can do is to give up. -/
theorem Guarded.eq_abandon_of_waiting (hg : s.Guarded) (hl : l ∈ s.arrived)
    (g : Turned source s l u l' c locks) (hwaits : l.stage = .waiting) {o : Lookup}
    (ho : o ∈ s.arrived) (hkey : o.key = l.key) (hholds : o.stage.isHolding = true) :
    u = .abandon := by
  cases g with
  | acquire _ free =>
      have hlock : o.lock = l.lock := hg.lock_eq_of_key_eq ho hl hkey
        (Lookup.isLive_of_isHolding hholds) (Lookup.IsEarly.isLive (.inl hwaits))
      have hfree := free o ho
      simp [Lookup.holds, hlock, hholds] at hfree
  | read h | remove h | receive h | store h | release h | clear h =>
      rw [hwaits] at h
      cases h
  | withdraw | drop => rfl

namespace Phase

theorem arrive (h : Phase k s.cache s.arrived) (id dataset : String) :
    Phase k (s.arrive id dataset).cache (s.arrive id dataset).arrived := by
  obtain ⟨lock, harrived, -, -, hcache⟩ := arrive_cases s id dataset
  rw [harrived, hcache]
  cases h with
  | untouched vacant unasked early =>
      refine .untouched vacant unasked fun o ho hkey => ?_
      rw [List.mem_append, List.mem_singleton] at ho
      obtain ho | rfl := ho
      · exact early o ho hkey
      · exact .inl rfl
  | @asking j o here hkey asks once others =>
      have hlt : j < s.arrived.length := (List.getElem?_eq_some_iff.1 here).1
      refine .asking ((List.getElem?_append_left hlt).trans here) hkey asks once
        fun n x hx hxkey hn => ?_
      rw [List.getElem?_append] at hx
      split at hx
      · exact others n x hx hxkey hn
      · obtain rfl := List.mem_singleton.1 (List.mem_of_getElem? hx)
        rfl
  | kept file fit once done =>
      obtain ⟨o, ho, honce⟩ := once
      refine .kept file fit ⟨o, List.mem_append_left _ ho, honce⟩ fun x hx hkey => ?_
      rw [List.mem_append, List.mem_singleton] at hx
      obtain hx | rfl := hx
      · exact done x hx hkey
      · exact .inl (.inl rfl)

/-- A turn of a look-up of another key. -/
theorem turn_of_ne (h : Phase k s.cache s.arrived) (hl : s.arrived[i]? = some l)
    (g : Turned source s l u l' c locks) (hne : k ≠ l.key) : Phase k c (s.arrived.set i l') := by
  have hne' : l'.key ≠ k := fun hkey => hne (hkey.symm.trans g.key_eq)
  cases h with
  | untouched vacant unasked early =>
      rw [← g.slots_of_ne hne] at vacant
      rw [← g.fetches_of_ne hne] at unasked
      exact .untouched vacant unasked (forall_mem_set early fun hkey => absurd hkey hne')
  | @asking j o here hkey asks once others =>
      rw [← g.fetches_of_ne hne] at once
      have hij : i ≠ j := by
        rintro rfl
        obtain rfl := Option.some.inj (hl.symm.trans here)
        exact hne hkey.symm
      refine .asking ((List.getElem?_set_ne hij).trans here) hkey asks once
        fun n x hx hxkey hn => ?_
      obtain ⟨-, rfl⟩ | ⟨-, hx⟩ := getElem?_set_cases hx
      · exact absurd hxkey hne'
      · exact others n x hx hxkey hn
  | kept file fit once done =>
      rw [← g.slots_of_ne hne] at file
      simp only [← g.fetches_of_ne hne] at once
      exact .kept file fit (exists_fetched_set hl g.dataset_eq once)
        (forall_mem_set done fun hkey => absurd hkey hne')

/-- A turn of a look-up while nobody has asked the source. -/
theorem turn_of_untouched (hg : s.Guarded) (hl : s.arrived[i]? = some l)
    (g : Turned source s l u l' c locks) (hu : u ≠ .abandon)
    (vacant : s.cache.slots l.key = .vacant) (unasked : s.cache.fetches l.key = [])
    (early : ∀ o ∈ s.arrived, o.key = l.key → o.IsEarly) :
    Phase l.key c (s.arrived.set i l') := by
  have hearly : l.IsEarly := early l (List.mem_of_getElem? hl) rfl
  cases g with
  | acquire => exact .untouched vacant unasked (forall_mem_set early fun _ => .inr rfl)
  | read hreads =>
      have honce : (l.read s.cache).2.fetches l.key = [l.address] := by
        rw [Lookup.read_of_vacant vacant]
        exact (Cache.fetches_of_asked rfl).trans (congrArg (· ++ [l.address]) unasked)
      rw [Lookup.read_of_vacant vacant] at honce ⊢
      refine .asking (List.getElem?_set_self (List.getElem?_eq_some_iff.1 hl).1) rfl (.inl rfl)
        honce fun j o ho hkey hj => ?_
      obtain ⟨rfl, -⟩ | ⟨-, ho⟩ := getElem?_set_cases ho
      · exact absurd rfl hj
      -- Another one that is about to read would hold the lock as well.
      · obtain hwaits | hreads' := early o (List.mem_of_getElem? ho) hkey
        · exact hwaits
        · exact absurd (hg.eq_of_key_eq ho hl hkey (by rw [hreads']; rfl) (by rw [hreads]; rfl)) hj
  | remove h | receive h | store h | release h | clear h => simp [Lookup.IsEarly, h] at hearly
  | withdraw | drop => exact absurd rfl hu

/-- A turn of the look-up that is asking the source. -/
theorem turn_of_asker (hl : s.arrived[i]? = some l) (g : Turned source s l u l' c locks)
    (hu : u ≠ .abandon) (hserves : u = .receive → Serves source l.address) (asks : l.IsAsking)
    (once : s.cache.fetches l.key = [l.address])
    (others : ∀ (n : Nat) (x : Lookup), s.arrived[n]? = some x → x.key = l.key → n ≠ i →
      x.stage = .waiting) : Phase l.key c (s.arrived.set i l') := by
  have hset : (s.arrived.set i l')[i]? = some l' :=
    List.getElem?_set_self (List.getElem?_eq_some_iff.1 hl).1
  have hothers (n : Nat) (x : Lookup) (hx : (s.arrived.set i l')[n]? = some x)
      (hxkey : x.key = l.key) (hn : n ≠ i) : x.stage = .waiting := by
    obtain ⟨rfl, -⟩ | ⟨-, hx⟩ := getElem?_set_cases hx
    · exact absurd rfl hn
    · exact others n x hx hxkey hn
  cases g with
  | receive =>
      obtain ⟨body, root, hroot, hreceive⟩ := Lookup.receive_of_serves (hserves rfl)
      rw [hreceive] at hset hothers ⊢
      exact .asking hset rfl (.inr ⟨body, root, rfl, hroot⟩) once hothers
  | @store body root hstores =>
      have hroot : decode body = .ok root := by
        obtain ⟨_, _, hstage, hroot⟩ := asks.resolve_left (by simp [hstores])
        rw [hstores] at hstage
        cases hstage
        exact hroot
      have hfile : (l.store s.cache body root).2.slots l.key = .file body := by
        simp only [Lookup.store, Cache.place_self]
      refine .kept hfile hroot ⟨_, List.mem_of_getElem? hset, rfl, once⟩ fun x hx hxkey => ?_
      obtain ⟨n, hn⟩ := List.getElem?_of_mem hx
      by_cases hni : n = i
      · subst hni
        obtain rfl := Option.some.inj (hset.symm.trans hn)
        exact .inr ⟨.inl rfl, rfl⟩
      · exact .inl (.inl (hothers n x hn hxkey hni))
  | acquire h | read h | remove h | release h | clear h => simp [Lookup.IsAsking, h] at asks
  | withdraw | drop => exact absurd rfl hu

/-- A turn of a look-up while one is asking the source. -/
theorem turn_of_asking (hg : s.Guarded) (hl : s.arrived[i]? = some l)
    (g : Turned source s l u l' c locks) (hu : u ≠ .abandon)
    (hserves : u = .receive → Serves source l.address) {j : Nat} {o : Lookup}
    (here : s.arrived[j]? = some o) (hkey : o.key = l.key) (asks : o.IsAsking)
    (once : s.cache.fetches l.key = [o.address])
    (others : ∀ (n : Nat) (x : Lookup), s.arrived[n]? = some x → x.key = l.key → n ≠ j →
      x.stage = .waiting) : Phase l.key c (s.arrived.set i l') := by
  by_cases hij : i = j
  · subst hij
    obtain rfl := Option.some.inj (hl.symm.trans here)
    exact turn_of_asker hl g hu hserves asks once others
  · -- The one that asks holds the lock, so nobody else can go on.
    have hwaits : l.stage = .waiting := others i l hl rfl hij
    exact absurd (hg.eq_abandon_of_waiting (List.mem_of_getElem? hl) g hwaits
      (List.mem_of_getElem? here) hkey asks.isHolding) hu

/-- A turn of a look-up once the answer is kept. -/
theorem turn_of_kept (hl : s.arrived[i]? = some l) (g : Turned source s l u l' c locks)
    (hu : u ≠ .abandon) {body : List UInt8} {root : Element}
    (file : s.cache.slots l.key = .file body) (fit : decode body = .ok root)
    (once : ∃ o ∈ s.arrived, o.key = l.key ∧ s.cache.fetches l.key = [o.address])
    (done : ∀ o ∈ s.arrived, o.key = l.key → o.IsEarly ∨ o.IsServed root) :
    Phase l.key c (s.arrived.set i l') := by
  have honce := exists_fetched_set hl g.dataset_eq once
  have hdone := done l (List.mem_of_getElem? hl) rfl
  cases g with
  | acquire =>
      exact .kept file fit honce (forall_mem_set done fun _ => .inl (.inr rfl))
  | read =>
      rw [Lookup.read_of_document file fit] at honce ⊢
      exact .kept file fit honce (forall_mem_set done fun _ => .inr ⟨.inl rfl, rfl⟩)
  | release h =>
      have hserved := hdone.resolve_left (by simp [Lookup.IsEarly, h])
      exact .kept file fit honce
        (forall_mem_set done fun _ => .inr ⟨.inr (.inl rfl), hserved.2⟩)
  | clear h =>
      have hserved := hdone.resolve_left (by simp [Lookup.IsEarly, h])
      exact .kept file fit honce
        (forall_mem_set done fun _ => .inr ⟨.inr (.inr rfl), hserved.2⟩)
  | remove h | receive h | store h => simp [Lookup.IsEarly, Lookup.IsServed, h] at hdone
  | withdraw | drop => exact absurd rfl hu

theorem turn (h : Phase k s.cache s.arrived) (hg : s.Guarded) (hl : s.arrived[i]? = some l)
    (g : Turned source s l u l' c locks) (hwhole : u = .abandon → l.key ≠ k)
    (hserves : u = .receive → l.key = k → Serves source l.address) :
    Phase k c (s.arrived.set i l') := by
  by_cases hne : k = l.key
  · subst hne
    have hu : u ≠ .abandon := fun hu => hwhole hu rfl
    cases h with
    | untouched vacant unasked early => exact turn_of_untouched hg hl g hu vacant unasked early
    | asking here hkey asks once others =>
        exact turn_of_asking hg hl g hu (fun h => hserves h rfl) here hkey asks once others
    | kept file fit once done => exact turn_of_kept hl g hu file fit once done
  · exact h.turn_of_ne hl g hne

/-- In every phase the source has been asked once at most. -/
theorem length_fetches_le (h : Phase k c arrived) : (c.fetches k).length ≤ 1 := by
  cases h with
  | untouched _ unasked => simp [unasked]
  | asking _ _ _ once => simp [once]
  | kept _ _ once =>
      obtain ⟨o, -, -, honce⟩ := once
      simp [honce]

/-- Once a look-up has let go of its lock, it has a document, and the source has been asked. -/
theorem served_of_not_isLive (h : Phase k c arrived) (hl : l ∈ arrived) (hkey : l.key = k)
    (hlive : l.isLive = false) :
    (∃ root, l.answer = some (.ok (named l.id root))) ∧
      ∃ o ∈ arrived, o.key = k ∧ c.fetches k = [o.address] := by
  have hearly : ¬l.IsEarly := fun h => Bool.false_ne_true (hlive.symm.trans h.isLive)
  cases h with
  | untouched _ _ early => exact absurd (early l hl hkey) hearly
  | @asking j o here _ asks _ others =>
      obtain ⟨i, hi⟩ := List.getElem?_of_mem hl
      by_cases hij : i = j
      · subst hij
        obtain rfl := Option.some.inj (hi.symm.trans here)
        rw [Lookup.isLive_of_isHolding asks.isHolding] at hlive
        cases hlive
      · exact absurd (.inl (others i l hi hkey hij)) hearly
  | @kept _ root _ _ once done =>
      exact ⟨⟨root, ((done l hl hkey).resolve_left hearly).2⟩, once⟩

end Phase

/-- The dataset of a look-up stays over a run. -/
theorem getElem?_of_run (h : s.run moves = some t) (hl : s.arrived[i]? = some l) :
    ∃ o, t.arrived[i]? = some o ∧ o.dataset = l.dataset := by
  refine run_induction (P := fun r => ∃ o, r.arrived[i]? = some o ∧ o.dataset = l.dataset) h
    ⟨l, hl, rfl⟩ ?_
  rintro ⟨source, m⟩ - r r' ⟨o, ho, hdataset⟩ hstep -
  have hlt : i < r.arrived.length := (List.getElem?_eq_some_iff.1 ho).1
  cases m with
  | arrive id dataset =>
      obtain ⟨lock, harrived, -⟩ := arrive_cases r id dataset
      obtain rfl := Option.some.inj hstep
      exact ⟨o, by rwa [harrived, List.getElem?_append_left hlt], hdataset⟩
  | turn j u =>
      obtain ⟨x, x', hx, harrived, g⟩ := turned_of_step hstep
      by_cases hji : j = i
      · subst hji
        obtain rfl := Option.some.inj (hx.symm.trans ho)
        exact ⟨x', by rw [harrived, List.getElem?_set_self hlt], g.dataset_eq.trans hdataset⟩
      · exact ⟨o, by rwa [harrived, List.getElem?_set_ne hji], hdataset⟩

/-- If no look-up of a key is abandoned, and the source serves them whenever it answers them, they
go through the phases. -/
theorem Phase.run (h : (start c).run moves = some t) (vacant : c.slots k = .vacant)
    (unasked : c.fetches k = [])
    (hwhole : ∀ source i l, (source, Move.turn i .abandon) ∈ moves → t.arrived[i]? = some l →
      l.key ≠ k)
    (hserves : ∀ source i l, (source, Move.turn i .receive) ∈ moves → t.arrived[i]? = some l →
      l.key = k → Serves source l.address) :
    Phase k t.cache t.arrived := by
  have hstart : Phase k (start c).cache (start c).arrived :=
    .untouched vacant unasked fun o ho => absurd ho List.not_mem_nil
  refine (run_induction (P := fun r => r.Guarded ∧ Phase k r.cache r.arrived) h
    ⟨.start c, hstart⟩ ?_).2
  rintro ⟨source, m⟩ hm r r' ⟨hg, hphase⟩ hstep ⟨rest, hrest⟩
  refine ⟨hg.step hstep, ?_⟩
  cases m with
  | arrive id dataset =>
      obtain rfl := Option.some.inj hstep
      exact hphase.arrive id dataset
  | turn i u =>
      obtain ⟨l, l', hl, harrived, g⟩ := turned_of_step hstep
      obtain ⟨o, ho, hdataset⟩ := getElem?_of_run hrest hl
      have haddress : o.address = l.address := congrArg address hdataset
      have hkey : o.key = l.key := congrArg key haddress
      rw [harrived]
      refine hphase.turn hg hl g (fun hu => ?_) fun hu hlkey => ?_
      · exact hkey ▸ hwhole source i o (hu ▸ hm) ho
      · exact haddress ▸ hserves source i o (hu ▸ hm) ho (hkey.trans hlkey)

/-- However look-ups take their turns: those of one key do not hold their lock at the same time;
those that wait for a lock or hold one have the one in the registry; and as long as one is not gone,
one can go on. If moreover a key had no file, no look-up of it was abandoned, and whenever the source
answered one of them it had a metadata document, then the source was asked once at most, and once a
look-up of the key has let go of its lock, exactly once. -/
theorem run_exclusive_once (directory : String) (slots : String → Slot)
    (moves : List (Source × Move)) (s : Lookups)
    (h : (start (Cache.ofSlots directory slots)).run moves = some s) :
    (∀ (i j : Nat) (a b : Lookup), s.arrived[i]? = some a → s.arrived[j]? = some b →
        a.key = b.key → a.stage.isHolding = true → b.stage.isHolding = true → i = j) ∧
      (∀ l ∈ s.arrived, l.isLive = true → s.locks.get? l.key = some l.lock) ∧
      (∀ (source : Source) (i : Nat) (l : Lookup), s.arrived[i]? = some l → l.stage ≠ .gone →
        ∃ j u s', u ≠ Turn.abandon ∧ s.step source (.turn j u) = some s') ∧
      ∀ k, slots k = .vacant →
        (∀ source i l, (source, Move.turn i .abandon) ∈ moves → s.arrived[i]? = some l →
          l.key ≠ k) →
        (∀ source i l, (source, Move.turn i .receive) ∈ moves → s.arrived[i]? = some l →
          l.key = k → Serves source l.address) →
        (s.cache.fetches k).length ≤ 1 ∧
          ∀ l ∈ s.arrived, l.key = k → l.isLive = false →
            (∃ root, l.answer = some (.ok (named l.id root))) ∧
            (s.cache.fetches k).length = 1 ∧
            ((∀ o ∈ s.arrived, o.key = k → o.address = l.address) →
              s.cache.asked.count l.address = 1) := by
  have hguarded : s.Guarded := .run h
  refine ⟨fun i j a b ha hb hkey => hguarded.eq_of_key_eq ha hb hkey, hguarded.shared,
    fun source i l hl => exists_step_of_ne_gone source hl, fun k hvacant hwhole hserves => ?_⟩
  have hphase : Phase k s.cache s.arrived := .run h hvacant rfl hwhole hserves
  refine ⟨hphase.length_fetches_le, fun l hl hkey hlive => ?_⟩
  obtain ⟨hanswer, o, ho, hokey, hfetches⟩ := hphase.served_of_not_isLive hl hkey hlive
  refine ⟨hanswer, by simp [hfetches], fun hsame => ?_⟩
  have hcount : (s.cache.fetches k).count l.address = s.cache.asked.count l.address :=
    List.count_filter (decide_eq_true hkey)
  rw [← hcount, hfetches, hsame o ho hokey, List.count_singleton_self]

/-- Three look-ups of one dataset. The third arrives when the first has let go of the lock and has
not cleared it away. -/
def handover : List Move :=
  [.arrive "sst" "sst", .arrive "mask" "sst", .turn 0 .acquire, .turn 0 .read, .turn 0 .receive,
    .turn 0 .store, .turn 0 .release, .arrive "copy" "sst", .turn 0 .clear, .turn 1 .acquire,
    .turn 1 .read, .turn 1 .release, .turn 1 .clear, .turn 2 .acquire, .turn 2 .read,
    .turn 2 .release, .turn 2 .clear]

theorem run_exclusive_once_handover :
    ∃ s, (start (Cache.ofSlots "cache" fun _ => .vacant)).run
        (handover.map fun m => (singleSource, m)) = some s ∧
      (∀ source i, (source, Move.turn i .abandon) ∉ handover.map fun m => (singleSource, m)) ∧
      (∀ l ∈ s.arrived, Serves singleSource l.address) ∧
      s.cache.asked.count "sst.dmr.xml" = 1 := by
  have hrun : ((start (Cache.ofSlots "cache" fun _ => .vacant)).run
      (handover.map fun m => (singleSource, m))).map
        (fun s => s.arrived.map fun l => (l.dataset, l.isLive)) =
      some [("sst", false), ("sst", false), ("sst", false)] := by decide +kernel
  obtain ⟨s, hs, harrived⟩ := Option.map_eq_some_iff.1 hrun
  have hmem {l : Lookup} (hl : l ∈ s.arrived) : l.address = "sst.dmr.xml" ∧ l.isLive = false := by
    have hpair : (l.dataset, l.isLive) ∈ s.arrived.map fun l => (l.dataset, l.isLive) :=
      List.mem_map_of_mem hl
    simp only [harrived, List.mem_cons, List.not_mem_nil, or_false, or_self, Prod.mk.injEq] at hpair
    exact ⟨congrArg address hpair.1, hpair.2⟩
  have hwhole : ∀ source i,
      (source, Move.turn i .abandon) ∉ handover.map fun m => (singleSource, m) := by
    simp [handover]
  have hserves : Serves singleSource "sst.dmr.xml" := by decide +kernel
  have hone : 0 < s.arrived.length := by
    rw [← List.length_map (f := fun l : Lookup => (l.dataset, l.isLive)), harrived]
    decide
  obtain ⟨l, hl⟩ := List.exists_mem_of_length_pos hone
  have hexclusive := run_exclusive_once "cache" (fun _ => .vacant) _ s hs
  have hserved := hexclusive.2.2.2 l.key rfl (fun source i o hm => absurd hm (hwhole source i))
    fun source i o hm ho _ => by
      obtain ⟨m, -, hm⟩ := List.mem_map.1 hm
      obtain ⟨rfl, -⟩ := Prod.mk.inj hm
      exact (hmem (List.mem_of_getElem? ho)).1 ▸ hserves
  obtain ⟨-, -, hasked⟩ := hserved.2 l hl rfl (hmem hl).2
  refine ⟨s, hs, hwhole, fun o ho => (hmem ho).1 ▸ hserves, ?_⟩
  rw [← (hmem hl).1]
  exact hasked fun o ho _ => (hmem ho).1.trans (hmem hl).1.symm

end Lookups

end CoverageAccess
