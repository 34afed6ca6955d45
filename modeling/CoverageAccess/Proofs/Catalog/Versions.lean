import CoverageAccess.Gateway
import CoverageAccess.Proofs.Catalog.Listed
/-!
# Requests while the file changes

A request for a coverage asks its catalog twice, and the catalog looks at its file each time. So an
access is put together from two versions of the file, the one at the first question and the one at the
second (`answer_of_run`). If the file was replaced in between, the access is that of a single version
exactly if the version has the same address as the second and makes the same expression as the first
(`access_of_versions`), and there need not be one.
-/

namespace CoverageAccess

theorem Format.accessUrl_inj {f : Format} {u v constraint : String}
    (h : f.accessUrl u constraint = f.accessUrl v constraint) : u = v := by
  have hchars := congrArg String.toList h
  simp only [accessUrl, toString] at hchars
  split at hchars
  · simpa [← String.toList_inj] using hchars
  · simpa [← String.toList_inj] using hchars

theorem Request.access_eq_ok_iff {r : Request} {d : Coverage} {u : String} {a : Access} :
    r.access d u = .ok a ↔ a.coverageId = r.coverageId ∧
      r.responseFormat d.nativeFormat = .ok a.format ∧
      d.expression r.fields r.subsets r.scaling = .ok a.expression ∧
      a.url = a.format.accessUrl u (Percent.encode a.expression) := by
  constructor
  · intro h
    obtain ⟨f, hf, h⟩ := bind_eq_ok_iff.1 h
    obtain ⟨text, htext, h⟩ := bind_eq_ok_iff.1 h
    cases pure_eq_ok_iff.1 h
    dsimp only
    exact ⟨rfl, hf, htext, rfl⟩
  · obtain ⟨id, format, expression, url⟩ := a
    rintro ⟨hid, hf, htext, hurl⟩
    dsimp only at hid hf htext hurl
    subst hid hurl
    rw [access, hf, ok_bind, htext]
    rfl

/-- An access is also that to another description, or in another dataset, exactly if the address is the
same and so is what is made of the description. -/
theorem Request.access_eq_ok_iff_of {r : Request} {c d : Coverage} {u v : String} {a : Access}
    (h : r.access d u = .ok a) : r.access c v = .ok a ↔
      v = u ∧ r.responseFormat c.nativeFormat = .ok a.format ∧
        c.expression r.fields r.subsets r.scaling = .ok a.expression := by
  obtain ⟨hid, -, -, hurl⟩ := access_eq_ok_iff.1 h
  constructor
  · intro h'
    obtain ⟨-, hformat, hexpression, hurl'⟩ := access_eq_ok_iff.1 h'
    exact ⟨Format.accessUrl_inj (hurl'.symm.trans hurl), hformat, hexpression⟩
  · rintro ⟨rfl, hformat, hexpression⟩
    exact access_eq_ok_iff.2 ⟨hid, hformat, hexpression, hurl⟩

/-- The access in a format that has been found. -/
def Request.accessIn (r : Request) (d : Coverage) (dataset : String) (f : Format) :
    Except Fault Access :=
  (d.expression r.fields r.subsets r.scaling).map fun expression =>
    ⟨r.coverageId, f, expression, f.accessUrl dataset (Percent.encode expression)⟩

theorem Request.access_of_format {r : Request} {d : Coverage} {f : Format}
    (hf : r.responseFormat d.nativeFormat = .ok f) (dataset : String) :
    r.access d dataset = r.accessIn d dataset f := by
  rw [access, hf, ok_bind, accessIn]
  cases d.expression r.fields r.subsets r.scaling <;> rfl

namespace Catalog

open Files

/-- How far a request has come. -/
inductive Stage where
  | received
  | described (d : Coverage)
  | located (d : Coverage) (dataset : String)
  | formatted (d : Coverage) (dataset : String) (format : Format)
  | answered (answer : Except Fault Access)

namespace Stage

/-- A step that fails is the end of its request. -/
def ofStep {α : Type} (next : α → Stage) : Except Fault α → Stage
  | .ok a => next a
  | .error e => .answered (.error e)

/-- The next stage of a request, and the catalog after that. -/
def next (s : Surroundings) (r : Request) (c : Catalog) : Stage → Stage × Catalog
  | .received =>
    let first := c.coverage s r.coverageId
    (ofStep .described first.1, first.2)
  | .described d =>
    let second := c.datasetUrl s r.coverageId
    (ofStep (.located d) second.1, second.2)
  | .located d dataset => (ofStep (.formatted d dataset) (r.responseFormat d.nativeFormat), c)
  | .formatted d dataset format => (.answered (r.accessIn d dataset format), c)
  | .answered answer => (.answered answer, c)

/-- The number of stages before the answer. -/
def rest : Stage → Nat
  | .received => 4
  | .described _ => 3
  | .located .. => 2
  | .formatted .. => 1
  | .answered _ => 0

/-- The answer of a request, once it has one. -/
def answer? : Stage → Option (Except Fault Access)
  | .answered answer => some answer
  | _ => none

/-- The answer that a request will have, if the next question to its catalog is asked in the
surroundings `s` and the one after that in the surroundings `t`. -/
def outcome (s t : Surroundings) (r : Request) (c : Catalog) : Stage → Except Fault Access
  | .received => (c.accessBetween s t r).1
  | .described d => (c.datasetUrl s r.coverageId).1.bind fun dataset => r.access d dataset
  | .located d dataset => r.access d dataset
  | .formatted d dataset format => r.accessIn d dataset format
  | .answered answer => answer

end Stage

/-- What happens while a request is answered: the file is replaced, or the request comes one stage
further. -/
inductive Move where
  | replace (file : Stamped)
  | advance

def Move.file? : Move → Option Stamped
  | .replace file => some file
  | .advance => none

/-- The versions of the file. -/
def versions (file : Stamped) (moves : List Move) : List Stamped :=
  file :: moves.filterMap Move.file?

/-- The version of the file at the stage with that number. -/
def versionAt (file : Stamped) : Nat → List Move → Stamped
  | _, [] => file
  | n, .replace new :: moves => versionAt new n moves
  | 0, .advance :: _ => file
  | n + 1, .advance :: moves => versionAt file n moves

/-- A request that is being answered. -/
structure Pending where
  file : Stamped
  catalog : Catalog
  stage : Stage

namespace Pending

def step (source : Metadata.Source) (r : Request) (p : Pending) : Move → Pending
  | .replace file => { p with file }
  | .advance =>
    let next := p.stage.next ⟨.ok p.file, source⟩ r p.catalog
    { p with catalog := next.2, stage := next.1 }

def run (source : Metadata.Source) (r : Request) (p : Pending) (moves : List Move) : Pending :=
  moves.foldl (step source r) p

end Pending

theorem versionAt_mem (file : Stamped) (n : Nat) (moves : List Move) :
    versionAt file n moves ∈ versions file moves := by
  induction moves generalizing file n with
  | nil =>
      rw [versionAt]
      exact List.mem_cons_self
  | cons move moves ih =>
      cases move with
      | replace new =>
          rw [versionAt]
          exact List.mem_cons_of_mem file (ih new n)
      | advance =>
          cases n with
          | zero =>
              rw [versionAt]
              exact List.mem_cons_self
          | succ n =>
              rw [versionAt]
              exact ih file n

theorem versionAt_of_quiet {file : Stamped} {n : Nat} {moves : List Move}
    (hquiet : ∀ move ∈ moves, move.file? = none) : versionAt file n moves = file := by
  induction moves generalizing n with
  | nil => rw [versionAt]
  | cons move moves ih =>
      obtain ⟨hmove, hmoves⟩ := List.forall_mem_cons.1 hquiet
      cases move with
      | replace new => cases hmove
      | advance =>
          cases n with
          | zero => rw [versionAt]
          | succ n => rw [versionAt, ih hmoves]

section Run

variable {source : Metadata.Source} {r : Request} {p : Pending} {c : Catalog} {file : Stamped}
  {moves : List Move} {answer : Except Fault Access}

theorem Stage.rest_ofStep {α : Type} {n : Nat} {next : α → Stage} (x : Except Fault α)
    (h : ∀ a, (next a).rest = n) : (ofStep next x).rest ≤ n := by
  cases x with
  | ok a => exact Nat.le_of_eq (h a)
  | error e => exact Nat.zero_le n

theorem Stage.rest_next (s : Surroundings) (stage : Stage) :
    (stage.next s r c).1.rest ≤ stage.rest - 1 := by
  cases stage with
  | received =>
      simp only [Stage.next]
      refine rest_ofStep _ fun _ => ?_
      rfl
  | described d =>
      simp only [Stage.next]
      refine rest_ofStep _ fun _ => ?_
      rfl
  | located d dataset =>
      simp only [Stage.next]
      refine rest_ofStep _ fun _ => ?_
      rfl
  | formatted d dataset format => exact Nat.le_refl 0
  | answered answer => exact Nat.le_refl 0

/-- One stage further a request has the same outcome, and one question less ahead of it. -/
theorem outcome_next (s t u : Surroundings) (stage : Stage) :
    (stage.next s r c).1.outcome t u r (stage.next s r c).2 = stage.outcome s t r c := by
  cases stage with
  | received =>
      rcases hfirst : c.coverage s r.coverageId with ⟨first, c'⟩
      cases first <;> simp only [Stage.next, Stage.ofStep, Stage.outcome, accessBetween, hfirst]
  | described d =>
      rcases hsecond : c.datasetUrl s r.coverageId with ⟨second, c'⟩
      cases second <;> simp only [Stage.next, Stage.ofStep, Stage.outcome, Except.bind, hsecond]
  | located d dataset =>
      cases hformat : r.responseFormat d.nativeFormat with
      | error e =>
          simp only [Stage.next, Stage.ofStep, Stage.outcome, Request.access, hformat, error_bind]
      | ok format =>
          simp only [Stage.next, Stage.ofStep, Stage.outcome, hformat,
            Request.access_of_format hformat]
  | formatted d dataset format => rfl
  | answered answer => rfl

/-- The answer of a request depends on the file at its first two stages only. -/
theorem answer_of_run (h : (p.run source r moves).stage.answer? = some answer) :
    answer = p.stage.outcome ⟨.ok (versionAt p.file 0 moves), source⟩
      ⟨.ok (versionAt p.file 1 moves), source⟩ r p.catalog := by
  induction moves generalizing p with
  | nil =>
      change p.stage.answer? = some answer at h
      cases hstage : p.stage with
      | answered a =>
          rw [hstage] at h
          exact (Option.some.inj h).symm
      | _ =>
          rw [hstage] at h
          cases h
  | cons move moves ih =>
      cases move with
      | replace file => exact ih h
      | advance => exact (ih h).trans (outcome_next _ _ _ p.stage)

/-- A request is answered when it came through the stages that it had before it, whatever happened to
the file. -/
theorem run_answered (h : p.stage.rest ≤ moves.countP fun move => move.file?.isNone) :
    ∃ answer, (p.run source r moves).stage.answer? = some answer := by
  induction moves generalizing p with
  | nil =>
      change ∃ answer, p.stage.answer? = some answer
      cases hstage : p.stage with
      | answered answer => exact ⟨answer, rfl⟩
      | _ => simp [hstage, Stage.rest] at h
  | cons move moves ih =>
      cases move with
      | replace file =>
          rw [List.countP_cons_of_neg (by simp [Move.file?])] at h
          exact ih h
      | advance =>
          rw [List.countP_cons_of_pos (by rfl)] at h
          exact ih (Nat.le_trans (Stage.rest_next _ p.stage) (Nat.sub_le_of_le_add h))

/-- While the file stays the same, a request gets what it gets at once. -/
theorem answer_of_quiet_run (hquiet : ∀ move ∈ moves, move.file? = none)
    (h : ((Pending.mk file c .received).run source r moves).stage.answer? = some answer) :
    answer = (c.access ⟨.ok file, source⟩ r).1 := by
  rw [answer_of_run h]
  dsimp only [Stage.outcome]
  rw [versionAt_of_quiet hquiet, versionAt_of_quiet hquiet]
  rfl

end Run

section Versions

variable {path : String} {source : Metadata.Source} {r : Request} {l k : Listed} {file v w : Stamped}
  {moves : List Move} {answer : Except Fault Access} {a : Access}

/-- A catalog that served one version serves the present one next, if that cannot be mistaken for the
other. -/
theorem Listed.refresh_of_load (hl : load path (.ok v) = .ok l) (hk : load path (.ok w) = .ok k)
    (htime : w.stamp = v.stamp → w = v) : l.refresh (.ok w) = k := by
  obtain ⟨_, e, ⟨⟩, he, rfl⟩ := load_eq_ok_iff.1 hl
  obtain ⟨_, e', ⟨⟩, he', rfl⟩ := load_eq_ok_iff.1 hk
  refine refresh_of_loads ?_ he'
  rintro _ ⟨⟩ hstamp
  rw [htime hstamp]
  exact he

/-- A catalog that served the present file serves it still. -/
theorem Listed.refresh_eq_self {state : State} (h : load path state = .ok l) :
    l.refresh state = l := by
  obtain ⟨v, -, rfl, -, -⟩ := load_eq_ok_iff.1 h
  exact refresh_of_load h h fun _ => rfl

/-- An access is that of the description and the address in the editions that are served. -/
theorem accessBetween_listed (s t : Surroundings) (l : Listed) (r : Request) :
    ((Catalog.listed l).accessBetween s t r).1 =
      ((l.refresh s.file).edition.coverage r.coverageId).bind fun d =>
        (((l.refresh s.file).refresh t.file).edition.datasetUrl r.coverageId).bind fun u =>
          r.access d u := by
  simp only [accessBetween, coverage, datasetUrl]
  cases (l.refresh s.file).edition.coverage r.coverageId <;> rfl

/-- The access that a version of the file gives if nothing happens to it. -/
theorem access_listed_eq_ok_iff (hk : Listed.load path (.ok v) = .ok k) :
    ((Catalog.listed k).access ⟨.ok v, source⟩ r).1 = .ok a ↔
      ∃ c u, k.edition.coverage r.coverageId = .ok c ∧ k.edition.datasetUrl r.coverageId = .ok u ∧
        r.access c u = .ok a := by
  rw [access, accessBetween_listed, Listed.refresh_eq_self hk, Listed.refresh_eq_self hk]
  constructor
  · intro h
    obtain ⟨c, hc, h⟩ := bind_eq_ok_iff.1 h
    obtain ⟨u, hu, h⟩ := bind_eq_ok_iff.1 h
    exact ⟨c, u, hc, hu, h⟩
  · rintro ⟨c, u, hc, hu, h⟩
    exact bind_eq_ok_iff.2 ⟨c, hc, bind_eq_ok_iff.2 ⟨u, hu, h⟩⟩

/-- The description is that of the version at the first stage, and the address is that of the version
at the second one. -/
theorem answer_of_versions (hopen : Listed.load path (.ok file) = .ok l)
    (hvalid : ∀ v ∈ versions file moves, ∃ k, Listed.load path (.ok v) = .ok k)
    (htimes : ∀ v ∈ versions file moves, ∀ w ∈ versions file moves, v.stamp = w.stamp → v = w)
    (hanswer : ((Pending.mk file (.listed l) .received).run source r moves).stage.answer? =
      some answer) :
    ∃ first second, Listed.load path (.ok (versionAt file 0 moves)) = .ok first ∧
      Listed.load path (.ok (versionAt file 1 moves)) = .ok second ∧
      answer = (first.edition.coverage r.coverageId).bind fun d =>
        (second.edition.datasetUrl r.coverageId).bind fun u => r.access d u := by
  have hfile : file ∈ versions file moves := List.mem_cons_self
  have hmem₀ := versionAt_mem file 0 moves
  have hmem₁ := versionAt_mem file 1 moves
  obtain ⟨first, hfirst⟩ := hvalid _ hmem₀
  obtain ⟨second, hsecond⟩ := hvalid _ hmem₁
  refine ⟨first, second, hfirst, hsecond, ?_⟩
  rw [answer_of_run hanswer]
  dsimp only [Stage.outcome]
  rw [accessBetween_listed, Listed.refresh_of_load hopen hfirst (htimes _ hmem₀ _ hfile),
    Listed.refresh_of_load hfirst hsecond (htimes _ hmem₁ _ hmem₀)]

/-- If the file is replaced while a request is answered, the access has the description of one version
and the address of another. Of the versions of the file, only those give the access by themselves
that have the same address and make the same of their description. -/
theorem access_of_versions (hopen : Listed.load path (.ok file) = .ok l)
    (hvalid : ∀ v ∈ versions file moves, ∃ k, Listed.load path (.ok v) = .ok k)
    (htimes : ∀ v ∈ versions file moves, ∀ w ∈ versions file moves, v.stamp = w.stamp → v = w)
    (hanswer : ((Pending.mk file (.listed l) .received).run source r moves).stage.answer? =
      some (.ok a)) :
    ∃ first second d u, Listed.load path (.ok (versionAt file 0 moves)) = .ok first ∧
      Listed.load path (.ok (versionAt file 1 moves)) = .ok second ∧
      first.edition.coverage r.coverageId = .ok d ∧
      second.edition.datasetUrl r.coverageId = .ok u ∧ r.access d u = .ok a ∧
      ∀ v k, Listed.load path (.ok v) = .ok k →
        (((Catalog.listed k).access ⟨.ok v, source⟩ r).1 = .ok a ↔
          k.edition.datasetUrl r.coverageId = .ok u ∧
          ∃ c, k.edition.coverage r.coverageId = .ok c ∧
            r.responseFormat c.nativeFormat = .ok a.format ∧
            c.expression r.fields r.subsets r.scaling = .ok a.expression) := by
  obtain ⟨first, second, hfirst, hsecond, h⟩ := answer_of_versions hopen hvalid htimes hanswer
  obtain ⟨d, hd, h⟩ := bind_eq_ok_iff.1 h.symm
  obtain ⟨u, hu, h⟩ := bind_eq_ok_iff.1 h
  refine ⟨first, second, d, u, hfirst, hsecond, hd, hu, h, fun v k hk => ?_⟩
  rw [access_listed_eq_ok_iff hk]
  constructor
  · rintro ⟨c, v, hc, hv, ha⟩
    obtain ⟨rfl, hmade⟩ := (Request.access_eq_ok_iff_of h).1 ha
    exact ⟨hv, c, hc, hmade⟩
  · rintro ⟨hv, c, hc, hmade⟩
    exact ⟨c, u, hc, hv, (Request.access_eq_ok_iff_of h).2 ⟨rfl, hmade⟩⟩

/-- A request during which the file stays the same has the access that its version gives. -/
theorem access_of_version (hopen : Listed.load path (.ok file) = .ok l)
    (hvalid : ∀ v ∈ versions file moves, ∃ k, Listed.load path (.ok v) = .ok k)
    (htimes : ∀ v ∈ versions file moves, ∀ w ∈ versions file moves, v.stamp = w.stamp → v = w)
    (hanswer : ((Pending.mk file (.listed l) .received).run source r moves).stage.answer? =
      some answer)
    (hsame : versionAt file 1 moves = versionAt file 0 moves) :
    ∃ k, Listed.load path (.ok (versionAt file 0 moves)) = .ok k ∧
      ((Catalog.listed k).access ⟨.ok (versionAt file 0 moves), source⟩ r).1 = answer := by
  obtain ⟨first, second, hfirst, hsecond, h⟩ := answer_of_versions hopen hvalid htimes hanswer
  rw [hsame, hfirst] at hsecond
  cases hsecond
  refine ⟨first, hfirst, ?_⟩
  rw [access, accessBetween_listed, Listed.refresh_eq_self hfirst, Listed.refresh_eq_self hfirst, h]

/-- A file with one coverage, of one field. -/
def fileOf (stamp : Nat) (name address : String) : Stamped :=
  ⟨stamp, (s!"coverages:\n- coverage_id: sst\n  dataset_url: {address}\n  domain_coordinates: []\n" ++
    s!"  fields:\n  - name: sst\n    backend_variable_id: {name}\n").toUTF8.toList⟩

def oldFile : Stamped := fileOf 1 "old" "/old"

def newFile : Stamped := fileOf 2 "new" "/new"

/-- The file is replaced between the questions. -/
def replacedBetween : List Move :=
  [.advance, .replace newFile, .advance, .advance, .advance]

/-- The request for the whole coverage. -/
def wholeCoverage : Request where
  coverageId := "sst"
  format := none
  mediaType := none
  fields := []
  subsets := ∅
  scaling := ⟨none, none, none⟩

/-- The field of one version in the dataset of the other. -/
def mixed : Access :=
  ⟨"sst", .netcdf, "old", "/new.nc?old"⟩

/-- The version has the coverage with that field in that dataset. -/
def Describes (v : Stamped) (name address : String) : Prop :=
  ∃ l c, Listed.load "coverages.yaml" (.ok v) = .ok l ∧ l.edition.coverage "sst" = .ok c ∧
    c.nativeFormat = "netcdf" ∧ c.expression [] ∅ ⟨none, none, none⟩ = .ok name ∧
    l.edition.datasetUrl "sst" = .ok address

theorem describes_of_load {name address : String}
    (h : (Listed.load "coverages.yaml" (.ok v)).toOption.bind (fun l =>
      (l.edition.coverage "sst").toOption.bind fun c =>
        (c.expression [] ∅ ⟨none, none, none⟩).toOption.map fun e =>
          (c.nativeFormat, e, c.datasetUrl)) = some ("netcdf", name, some address)) :
    Describes v name address := by
  obtain ⟨l, hl, h⟩ := Option.bind_eq_some_iff.1 h
  obtain ⟨c, hc, h⟩ := Option.bind_eq_some_iff.1 h
  obtain ⟨e, he, h⟩ := Option.map_eq_some_iff.1 h
  rw [toOption_eq_some_iff] at hl hc he
  simp only [Prod.mk.injEq] at h
  obtain ⟨hformat, rfl, hurl⟩ := h
  exact ⟨l, c, hl, hc, hformat, he, Edition.datasetUrl_eq_ok_iff.2 ⟨c, hc, hurl⟩⟩

theorem describes_oldFile : Describes oldFile "old" "/old" :=
  describes_of_load (by decide +kernel)

theorem describes_newFile : Describes newFile "new" "/new" :=
  describes_of_load (by decide +kernel)

theorem versions_replacedBetween : versions oldFile replacedBetween = [oldFile, newFile] := rfl

theorem load_of_replacedBetween :
    ∀ v ∈ versions oldFile replacedBetween, ∃ k, Listed.load "coverages.yaml" (.ok v) = .ok k := by
  obtain ⟨l, -, hl, -⟩ := describes_oldFile
  obtain ⟨k, -, hk, -⟩ := describes_newFile
  simp [versions_replacedBetween, hl, hk]

theorem eq_of_stamp_replacedBetween : ∀ v ∈ versions oldFile replacedBetween,
    ∀ w ∈ versions oldFile replacedBetween, v.stamp = w.stamp → v = w := by
  have hlater : oldFile.stamp ≠ newFile.stamp := by decide
  simp [versions_replacedBetween, hlater, hlater.symm]

/-- The field is described by the old version, and the dataset is located by the new one. -/
theorem answer_replacedBetween (hl : Listed.load "coverages.yaml" (.ok oldFile) = .ok l) :
    ((Pending.mk oldFile (.listed l) .received).run Metadata.offline wholeCoverage
      replacedBetween).stage.answer? = some (.ok mixed) := by
  obtain ⟨first, c, hfirst, hc, hnative, hold, -⟩ := describes_oldFile
  obtain ⟨second, -, hsecond, -, -, -, hnew⟩ := describes_newFile
  have hanswered : ∃ answer, ((Pending.mk oldFile (.listed l) .received).run Metadata.offline
      wholeCoverage replacedBetween).stage.answer? = some answer := run_answered (Nat.le_refl 4)
  obtain ⟨answer, hanswer⟩ := hanswered
  obtain ⟨k₀, k₁, hk₀, hk₁, rfl⟩ :=
    answer_of_versions hl load_of_replacedBetween eq_of_stamp_replacedBetween hanswer
  cases hfirst.symm.trans hk₀
  cases hsecond.symm.trans hk₁
  have hmixed : wholeCoverage.access c "/new" = .ok mixed :=
    Request.access_eq_ok_iff.2 ⟨rfl, by rw [hnative]; rfl, hold, by decide⟩
  rw [hanswer, show wholeCoverage.coverageId = "sst" from rfl, hc, hnew]
  simp only [Except.bind, hmixed]

/-- Neither version gives the access by itself. -/
theorem access_of_versions_mixed :
    ∃ l k, Listed.load "coverages.yaml" (.ok oldFile) = .ok l ∧
      Listed.load "coverages.yaml" (.ok newFile) = .ok k ∧
      ((Pending.mk oldFile (.listed l) .received).run Metadata.offline wholeCoverage
        replacedBetween).stage.answer? = some (.ok mixed) ∧
      ((Catalog.listed l).access ⟨.ok oldFile, Metadata.offline⟩ wholeCoverage).1 ≠ .ok mixed ∧
      ((Catalog.listed k).access ⟨.ok newFile, Metadata.offline⟩ wholeCoverage).1 ≠ .ok mixed := by
  obtain ⟨l, c, hl, -, -, -, hold⟩ := describes_oldFile
  obtain ⟨k, d, hk, hd, -, hexpression, hnew⟩ := describes_newFile
  have hanswer := answer_replacedBetween hl
  obtain ⟨_, second, _, u, -, hsecond, -, hu, -, hiff⟩ :=
    access_of_versions hl load_of_replacedBetween eq_of_stamp_replacedBetween hanswer
  cases hk.symm.trans hsecond
  refine ⟨l, k, hl, hk, hanswer, fun h => ?_, fun h => ?_⟩
  · obtain ⟨hsame, -⟩ := (hiff oldFile l hl).1 h
    have haddress : "/old" = "/new" := by
      rw [← Except.ok.injEq, ← hold, ← hnew]
      exact hsame.trans hu.symm
    exact absurd haddress (by decide)
  · obtain ⟨-, d', hd', -, hsame⟩ := (hiff newFile k hk).1 h
    cases hd.symm.trans hd'
    exact absurd (Except.ok.inj (hexpression.symm.trans hsame)) (by decide)

end Versions

end Catalog

end CoverageAccess
