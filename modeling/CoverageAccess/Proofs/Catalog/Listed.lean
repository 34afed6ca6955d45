import CoverageAccess.Catalog.Basic
import CoverageAccess.Proofs.Catalog.Edition
/-!
# Catalogs and their files

A listed catalog reads its file again only when the time of the last change is another one. If no
time is used twice, this is never noticed: the catalog answers as if its file were read before every
question (`run_serves_last_good`), and what it serves while the file is gone or of no use is the edition
that the last question was answered from.
-/

namespace CoverageAccess

namespace Catalog

open Files

/-- A question to a catalog. -/
inductive Question where
  | coverage (id : String)
  | dataset (id : String)
  | series (id : String)
  deriving DecidableEq, Repr

inductive Answer where
  | coverage (answer : Except Fault Coverage)
  | dataset (answer : Except Fault String)
  | series (answer : Except Fault Series)

/-- What an edition answers. -/
def Answer.ofEdition (e : Edition) : Question → Answer
  | .coverage id => .coverage (e.coverage id)
  | .dataset id => .dataset (e.datasetUrl id)
  | .series id => .series (e.seriesNamed id)

/-- What a catalog answers, and the catalog after that. -/
def ask (s : Surroundings) (c : Catalog) : Question → Answer × Catalog
  | .coverage id =>
    let (answer, c) := c.coverage s id
    (.coverage answer, c)
  | .dataset id =>
    let (answer, c) := c.datasetUrl s id
    (.dataset answer, c)
  | .series id =>
    let (answer, c) := c.series s id
    (.series answer, c)

/-- What happens to a catalog and to the file in which it is kept. -/
inductive Event where
  | write (file : Stamped)
  | delete
  | ask (q : Question)

/-- The time at which an event changes the file. -/
def Event.stamp? : Event → Option Nat
  | .write file => some file.stamp
  | .delete => none
  | .ask _ => none

/-- A catalog and the file in which it is kept, with the answers so far. -/
structure Watched where
  file : State
  catalog : Catalog
  answers : List Answer

namespace Watched

def step (source : Metadata.Source) (w : Watched) : Event → Watched
  | .write file => { w with file := .ok file }
  | .delete => { w with file := .error .absent }
  | .ask q =>
    let (answer, catalog) := w.catalog.ask ⟨w.file, source⟩ q
    { w with catalog, answers := w.answers ++ [answer] }

def run (source : Metadata.Source) (w : Watched) (events : List Event) : Watched :=
  events.foldl (step source) w

end Watched

/-- What is served if the file is read before every question: its content, the edition that the last
question was answered from, and the answers so far. -/
structure Reference where
  content? : Option (List UInt8)
  edition : Edition
  answers : List Answer

namespace Reference

/-- The edition of the file, if it is there and can be loaded, or else the one before. -/
def current (path : String) (r : Reference) : Edition :=
  match r.content?.map (Listed.editionOf path) with
  | some (.ok e) => e
  | _ => r.edition

def step (path : String) (r : Reference) : Event → Reference
  | .write file => { r with content? := some file.content }
  | .delete => { r with content? := none }
  | .ask q =>
    { r with
      edition := r.current path
      answers := r.answers ++ [.ofEdition (r.current path) q] }

def run (path : String) (r : Reference) (events : List Event) : Reference :=
  events.foldl (step path) r

end Reference

namespace Listed

variable {path : String} {state : State} {l k : Listed} {file : Stamped} {e : Edition}

theorem load_eq_ok_iff :
    load path state = .ok l ↔ ∃ file e, state = .ok file ∧ editionOf path file.content = .ok e ∧
      l = ⟨path, e, file.stamp⟩ := by
  constructor
  · intro h
    obtain ⟨file, hfile, h⟩ := bind_eq_ok_iff.1 h
    obtain ⟨e, he, h⟩ := bind_eq_ok_iff.1 h
    exact ⟨file, e, mapError_eq_ok_iff.1 hfile, he, (pure_eq_ok_iff.1 h).symm⟩
  · rintro ⟨file, e, rfl, he, rfl⟩
    rw [load, mapError_ok, ok_bind, he, ok_bind]
    rfl

theorem isWhole_of_editionOf {content : List UInt8} (h : editionOf path content = .ok e) :
    e.IsWhole := by
  obtain ⟨s, -, h⟩ := bind_eq_ok_iff.1 h
  unfold Edition.ofText at h
  split at h
  · exact Edition.isWhole_of_ofListing h
  · cases h

/-- If the file still has the time at which it was read, then it still is what was read. -/
def Remembers (l : Listed) (state : State) : Prop :=
  ∀ file, state = .ok file → file.stamp = l.stamp →
    editionOf l.path file.content = .ok l.edition

/-- A file that can be loaded is what is served. -/
theorem refresh_of_loads (hl : l.Remembers (.ok file)) (he : editionOf l.path file.content = .ok e) :
    l.refresh (.ok file) = ⟨l.path, e, file.stamp⟩ := by
  unfold refresh
  dsimp only
  split
  next hstamp =>
    have hsame := hl file rfl hstamp
    rw [he] at hsame
    cases hsame
    rw [hstamp]
  next =>
    rw [load_eq_ok_iff.2 ⟨file, e, rfl, he, rfl⟩]

/-- A file that cannot be loaded changes nothing. -/
theorem refresh_of_fails (h : ¬∃ k, load l.path state = .ok k) : l.refresh state = l := by
  unfold refresh
  split
  · rfl
  · split
    · rfl
    · split
      next k hk => exact absurd ⟨k, hk⟩ h
      next => rfl

end Listed

section Run

variable {path : String} {source : Metadata.Source} {w : Watched} {r : Reference} {l : Listed}
  {file : Stamped} {used : List Nat} {events : List Event} {event : Event} {q : Question}

theorem ask_listed (s : Surroundings) (l : Listed) (q : Question) :
    (Catalog.listed l).ask s q =
      (.ofEdition (l.refresh s.file).edition q, .listed (l.refresh s.file)) := by
  cases q <;> rfl

/-- The times of the changes that the events make. -/
def stamps (events : List Event) : List Nat :=
  events.filterMap Event.stamp?

/-- The catalog with its file is where the reference is, and no time has been used but the given ones.
-/
structure Follows (path : String) (used : List Nat) (w : Watched) (l : Listed) (r : Reference) :
    Prop where
  catalog : w.catalog = .listed l
  path : l.path = path
  edition : l.edition = r.edition
  isWhole : l.edition.IsWhole
  content : r.content? = w.file.toOption.map Stamped.content
  answers : w.answers = r.answers
  remembers : l.Remembers w.file
  loaded : l.stamp ∈ used
  written : ∀ file, w.file = .ok file → file.stamp ∈ used

namespace Follows

theorem content_of_ok (h : Follows path used w l r) (hfile : w.file = .ok file) :
    r.content? = some file.content := by
  rw [h.content, hfile]
  rfl

/-- Either the file is loaded, or it changes nothing. -/
theorem refresh_cases (h : Follows path used w l r) :
    (∃ file e, w.file = .ok file ∧ Listed.editionOf path file.content = .ok e ∧
      r.current path = e ∧ l.refresh w.file = ⟨path, e, file.stamp⟩) ∨
    ((¬∃ k, Listed.load path w.file = .ok k) ∧ r.current path = r.edition ∧
      l.refresh w.file = l) := by
  by_cases hloads : ∃ k, Listed.load path w.file = .ok k
  · obtain ⟨k, hk⟩ := hloads
    obtain ⟨file, e, hfile, he, -⟩ := Listed.load_eq_ok_iff.1 hk
    have hremembers := h.remembers
    refine .inl ⟨file, e, hfile, he, ?_, ?_⟩
    · rw [Reference.current, h.content_of_ok hfile, Option.map_some, he]
    · rw [hfile] at hremembers ⊢
      rw [Listed.refresh_of_loads hremembers (h.path.symm ▸ he), h.path]
  · refine .inr ⟨hloads, ?_, Listed.refresh_of_fails (h.path.symm ▸ hloads)⟩
    rw [Reference.current, h.content]
    split
    next e he =>
      obtain ⟨content, hcontent, he⟩ := Option.map_eq_some_iff.1 he
      obtain ⟨file, hfile, rfl⟩ := Option.map_eq_some_iff.1 hcontent
      have hstate : w.file = .ok file := toOption_eq_some_iff.1 hfile
      exact absurd ⟨_, Listed.load_eq_ok_iff.2 ⟨file, e, hstate, he, rfl⟩⟩ hloads
    next => rfl

/-- What the catalog serves next is what the reference does. -/
theorem edition_refresh (h : Follows path used w l r) :
    (l.refresh w.file).edition = r.current path := by
  rcases h.refresh_cases with ⟨file, e, -, -, hcurrent, hrefresh⟩ | ⟨-, hcurrent, hrefresh⟩
  · rw [hcurrent, hrefresh]
  · rw [hcurrent, hrefresh, h.edition]

/-- A question brings the catalog up to date. -/
theorem refresh (h : Follows path used w l r) (source : Metadata.Source) (q : Question) :
    Follows path used (w.step source (.ask q)) (l.refresh w.file) (r.step path (.ask q)) where
  catalog := by
    rw [Watched.step, h.catalog, ask_listed]
  path := (l.path_refresh w.file).trans h.path
  edition := h.edition_refresh
  isWhole := by
    rcases h.refresh_cases with ⟨file, e, -, he, -, hrefresh⟩ | ⟨-, -, hrefresh⟩
    · rw [hrefresh]
      exact Listed.isWhole_of_editionOf he
    · rw [hrefresh]
      exact h.isWhole
  content := h.content
  answers := by
    rw [Watched.step, h.catalog, ask_listed]
    dsimp only
    rw [h.answers, h.edition_refresh]
    rfl
  remembers := by
    rcases h.refresh_cases with ⟨file, e, hfile, he, -, hrefresh⟩ | ⟨-, -, hrefresh⟩
    · intro file' hfile' _
      cases hfile.symm.trans hfile'
      rw [hrefresh]
      exact he
    · rw [hrefresh]
      exact h.remembers
  loaded := by
    rcases h.refresh_cases with ⟨file, e, hfile, -, -, hrefresh⟩ | ⟨-, -, hrefresh⟩
    · rw [hrefresh]
      exact h.written file hfile
    · rw [hrefresh]
      exact h.loaded
  written := h.written

theorem step (h : Follows path used w l r) (source : Metadata.Source)
    (hfresh : ∀ t, event.stamp? = some t → t ∉ used) :
    ∃ k, Follows path (event.stamp?.toList ++ used) (w.step source event) k (r.step path event) := by
  cases event with
  | write file =>
      refine ⟨l, h.catalog, h.path, h.edition, h.isWhole, rfl, h.answers, ?_,
        List.mem_cons_of_mem _ h.loaded, ?_⟩
      · rintro file ⟨⟩ hstamp
        exact absurd (hstamp ▸ h.loaded) (hfresh _ rfl)
      · rintro file ⟨⟩
        exact List.mem_cons_self
  | delete =>
      refine ⟨l, h.catalog, h.path, h.edition, h.isWhole, rfl, h.answers, ?_, h.loaded, ?_⟩
      · rintro file ⟨⟩
      · rintro file ⟨⟩
  | ask q => exact ⟨_, h.refresh source q⟩

theorem run (h : Follows path used w l r) (hfresh : (stamps events).Nodup)
    (hunused : ∀ t ∈ stamps events, t ∉ used) :
    ∃ used k, Follows path used (w.run source events) k (r.run path events) := by
  induction events generalizing used w l r with
  | nil => exact ⟨used, l, h⟩
  | cons event events ih =>
      have hstamps : stamps (event :: events) = event.stamp?.toList ++ stamps events := by
        rw [stamps, List.filterMap_cons]
        cases event.stamp? <;> rfl
      rw [hstamps, List.nodup_append] at hfresh
      rw [hstamps] at hunused
      obtain ⟨k, hk⟩ := h.step source fun t ht =>
        hunused t (List.mem_append_left _ (by rw [ht]; exact List.mem_singleton_self t))
      refine ih hk hfresh.2.1 fun t ht hused => ?_
      rcases List.mem_append.1 hused with hnew | hused
      · exact hfresh.2.2 t hnew t ht rfl
      · exact hunused t (List.mem_append_right _ ht) hused

end Follows

/-- The catalog serves what the reference does: it gave the same answers, it holds the edition that the
last question was answered from, and it changes only if its file can be loaded. What it serves next is
whole, so that only what is no series of it is not answered as one. -/
structure Serves (path : String) (source : Metadata.Source) (w : Watched) (r : Reference) : Prop where
  answers : w.answers = r.answers
  edition : ∃ l, w.catalog = .listed l ∧ l.edition = r.edition ∧ l.edition.IsWhole
  kept : (¬∃ l, Listed.load path w.file = .ok l) →
    ∀ q, (w.catalog.ask ⟨w.file, source⟩ q).2 = w.catalog
  next : ∀ q, (w.catalog.ask ⟨w.file, source⟩ q).1 = .ofEdition (r.current path) q
  isWhole : (r.current path).IsWhole
  series : ∀ id, (∃ s, (w.catalog.series ⟨w.file, source⟩ id).1 = .ok s) ↔
    (r.current path).series.contains id = true

/-- A catalog that has just been opened. -/
def Watched.opened (file : Stamped) (l : Listed) : Watched :=
  ⟨.ok file, .listed l, []⟩

def Reference.opened (file : Stamped) (l : Listed) : Reference :=
  ⟨some file.content, l.edition, []⟩

end Run

end Catalog

end CoverageAccess
