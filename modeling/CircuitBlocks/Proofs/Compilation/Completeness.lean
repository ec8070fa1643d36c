import CircuitBlocks.Block.Compile
import CircuitBlocks.Proofs.Compilation.Libraries
import Mathlib.Data.List.Nodup

/-!
# Completeness — when a compile that succeeded has all its artifacts

A compiler is tidy if it leaves the file that it was asked for and nothing else. Artifacts are known by
their names alone, so what such a compiler leaves is complete just if no two sources compile to one name.
Of two files with one crate the later library is kept with the text of the earlier file, and a file with
the crate of the unit takes the unit's place.

* `Compiler.Tidy` — the compilers that write the file of their `-o` option and nothing else.
* `CompileRequest.Written` — the bytes that each call of a compile has written.
* `CompileRequest.Complete` — the stores with one artifact for each source of a request, and no other.
* **`Block.complete_iff_nodup`** — a store is complete just if all sources compile to different names.
-/

namespace CircuitBlocks

/-! ## Tidy compilers -/

/-- Whether a call asks for a file of the scratch directory. -/
def CompilerCall.AsksFor (call : CompilerCall) (scratch file : String) : Prop :=
  '/' ∉ file.toList ∧ ["-o", Path.join scratch file] <:+: call.arguments

/-- A compiler that has written the file that it was asked for, and no other, whenever it succeeds. -/
def Compiler.Tidy (c : Compiler) (scratch : String) : Prop :=
  ∀ earlier call files output left file, c.compile earlier call files = (.ok output, left) →
    output.success = true → call.AsksFor scratch file → ∃ bytes, left.Perm (files.write file bytes)

/-- A toolchain whose compiler, wherever it is found and whatever was called before, is tidy. -/
def Toolchain.Tidy (t : Toolchain) (m : Machine) : Prop :=
  ∀ calls arguments c directory,
    { m with calls := calls }.spawn t.config.compiler arguments t.config.workingDirectory
      = .ok (c, directory) → c.Tidy m.scratch

/-! ## Names without slashes -/

/-- The name of a crate holds letters, digits and underscores alone. -/
theorem not_mem_of_isCrateName {c : Char} (hc : c.isAlphanum = false) (hunderscore : c ≠ '_') {name : String}
    (h : isCrateName name = true) : c ∉ name.toList := by
  -- a character of a name is a letter, a digit or an underscore, and so another one than this
  have hrefused : ∀ d, (d.isAlphanum || decide (d = '_')) = true → c ≠ d := by
    rintro _ hd rfl
    rw [hc, decide_eq_false hunderscore] at hd
    cases hd
  unfold isCrateName at h
  split at h
  · cases h
  · next first rest hname =>
    rw [hname]
    obtain ⟨hfirst, hrest⟩ := (Bool.and_eq_true _ _).mp h
    refine List.not_mem_cons_of_ne_of_not_mem (hrefused first ?_) fun hmem =>
      hrefused c (List.all_eq_true.1 hrest c hmem) rfl
    rw [Char.isAlphanum, Bool.or_right_comm, hfirst, Bool.true_or]

/-- So does the name of an artifact. -/
theorem BlockId.not_mem_artifactName {c : Char} (hc : c.isAlphanum = false) (hunderscore : c ≠ '_') (id : BlockId) :
    c ∉ id.artifactName.toList := by
  unfold artifactName
  rw [String.toList_ofList, List.mem_append, List.mem_map]
  -- it would be in the fixed start, or take the place of a character of the id
  rintro (hstart | ⟨d, -, hd⟩)
  · have hall : ∀ d ∈ "unit_".toList, d.isAlphanum = true ∨ d = '_' := by simp
    rcases hall c hstart with halphanum | hcunderscore
    · rw [hc] at halphanum
      cases halphanum
    · exact hunderscore hcunderscore
  · unfold artifactChar at hd
    split at hd
    · next halphanum =>
      rw [hd, hc] at halphanum
      cases halphanum
    · exact hunderscore hd.symm

theorem not_slash_of_isCrateName {name : String} (h : isCrateName name = true) : '/' ∉ name.toList :=
  not_mem_of_isCrateName (by decide) (by decide) h

theorem BlockId.not_slash_artifactName (id : BlockId) : '/' ∉ id.artifactName.toList :=
  id.not_mem_artifactName (by decide) (by decide)

/-- The file that a call writes has a name without slashes if its crate has one. -/
theorem not_slash_crateFileName {crate : String} (h : '/' ∉ crate.toList) :
    '/' ∉ (crateFileName crate).toList := by
  have hstart : '/' ∉ libraryStart.toList := by decide
  have hend : '/' ∉ ProducedLibrary.crateEnd.toList := by decide
  simp [crateFileName, hstart, hend, h]

theorem not_slash_libraryFileName {name : String} (h : '/' ∉ name.toList) :
    '/' ∉ (libraryFileName name).toList := by
  have hstart : '/' ∉ libraryStart.toList := by decide
  have hend : '/' ∉ libraryEnd.toList := by decide
  simp [libraryFileName, hstart, hend, h]

theorem AuxiliaryFile.not_slash_task {f : AuxiliaryFile} (h : isCrateName f.crate = true)
    (linked : List String) : '/' ∉ (f.task linked).outputFile.toList := by
  rw [show (f.task linked).outputFile = crateFileName f.crate from rfl]
  exact not_slash_crateFileName (not_slash_of_isCrateName h)

theorem CompileRequest.not_slash_primaryTask {r : CompileRequest} (h : '/' ∉ r.primaryName.toList)
    (linked : List String) : '/' ∉ (r.primaryTask linked).outputFile.toList := by
  rw [show (r.primaryTask linked).outputFile = libraryFileName r.primaryName from rfl]
  exact not_slash_libraryFileName h

/-! ## Calls -/

theorem Listing.mem_write (files : Listing) (name : String) (bytes : List UInt8) :
    (name, bytes) ∈ files.write name bytes := by
  unfold write
  split
  · next hany =>
    obtain ⟨f, hf, hname⟩ := List.any_eq_true.1 hany
    exact List.mem_map.2 ⟨f, hf, if_pos (of_decide_eq_true hname)⟩
  · exact List.mem_cons_self

theorem Listing.write_new {files : Listing} {name : String} (h : ∀ f ∈ files, f.1 ≠ name)
    (bytes : List UInt8) : files.write name bytes = (name, bytes) :: files := by
  refine if_neg fun hany => ?_
  obtain ⟨f, hf, hname⟩ := List.any_eq_true.1 hany
  exact h f hf (of_decide_eq_true hname)

/-- What is found in a file that was new is what was written to it. -/
theorem Listing.perm_of_write_new {files left : Listing} {name : String} (hnew : ∀ f ∈ files, f.1 ≠ name)
    {written bytes : List UInt8} (hperm : left.Perm (files.write name written)) (h : (name, bytes) ∈ left) :
    left.Perm ((name, bytes) :: files) := by
  rw [write_new hnew] at hperm
  rcases List.mem_cons.1 (hperm.mem_iff.1 h) with heq | hold
  · rw [heq]
    exact hperm
  · exact absurd rfl (hnew _ hold)

/-- What a call asks for. -/
theorem CompileTask.asksFor (task : CompileTask) (config : ToolchainConfig) {made : CompilerCall}
    {scratch : String} (hmade : made.arguments = task.arguments config scratch)
    (hslash : '/' ∉ task.outputFile.toList) : made.AsksFor scratch task.outputFile := by
  refine ⟨hslash, ?_⟩
  rw [hmade, arguments]
  exact ⟨config.commonArguments ++ ["--crate-name", task.crate, "--crate-type", task.crateType],
    ["-L", "dependency=" ++ scratch] ++ task.linked.flatMap (fun crate =>
      crateArguments crate (Path.join scratch (crateFileName crate))) ++ config.extraArguments ++ ["-"],
    by simp [List.append_assoc]⟩

namespace Toolchain

variable {t : Toolchain} {m : Machine}

/-- A call of a tidy compiler that succeeds writes the file of its task. -/
theorem Tidy.call (htidy : t.Tidy m) {task : CompileTask} {p p' : CompileProgress}
    {calls : List CompilerCall} (hp : p.machine = { m with calls := calls })
    (hslash : '/' ∉ task.outputFile.toList) (h : t.call task p = (.ok true, p')) :
    (∃ calls', p'.machine = { m with calls := calls' }) ∧
      ∃ bytes, p'.scratch.Perm (p.scratch.write task.outputFile bytes) := by
  obtain ⟨compiler, made, output, hspawn, hmade, -, hanswer, hok, hmachine⟩ := call_eq_ok h
  rw [hp] at hspawn hmade hmachine
  exact ⟨⟨_, hmachine⟩, htidy _ _ _ _ hspawn _ _ _ _ _ _ hanswer hok (task.asksFor t.config hmade hslash)⟩

/-! ## What a compile has written -/

/-- `t.Wrote linked files p written p'`: the compiles of `files` after `linked` succeeded, led from `p` to
`p'`, and each had written the listed bytes when it ended. -/
inductive Wrote (t : Toolchain) :
    List String → List AuxiliaryFile → CompileProgress → List (List UInt8) → CompileProgress → Prop where
  | done (linked : List String) (p : CompileProgress) : Wrote t linked [] p [] p
  | next {linked : List String} {f : AuxiliaryFile} {rest : List AuxiliaryFile} {p p₁ p' : CompileProgress}
      {bytes : List UInt8} {written : List (List UInt8)} (hcall : t.call (f.task linked) p = (.ok true, p₁))
      (hbytes : (crateFileName f.crate, bytes) ∈ p₁.scratch)
      (hrest : Wrote t (linked ++ [f.crate]) rest p₁ written p') :
      Wrote t linked (f :: rest) p (bytes :: written) p'

/-- The file of a source with the bytes that were written to it. -/
def fileOf (e : AuxiliaryFile × List UInt8) : String × List UInt8 := (crateFileName e.1.crate, e.2)

/-- A library is written for each file. -/
theorem Wrote.length_eq {linked : List String} {files : List AuxiliaryFile} {p p' : CompileProgress}
    {written : List (List UInt8)} (h : t.Wrote linked files p written p') :
    written.length = files.length := by
  induction h with
  | done => rfl
  | next _ _ _ ih => rw [List.length_cons, List.length_cons, ih]

/-- Compiles that all succeed have written something for each file. -/
theorem Tidy.exists_wrote (htidy : t.Tidy m) {files : List AuxiliaryFile} {linked : List String}
    {p p' : CompileProgress} {calls : List CompilerCall} (hp : p.machine = { m with calls := calls })
    (h : t.callAuxiliaries linked files p = (.ok true, p')) :
    (∃ written, t.Wrote linked files p written p') ∧ (∃ calls', p'.machine = { m with calls := calls' }) ∧
      ∀ f ∈ files, isCrateName f.crate = true := by
  -- the bytes of each call are still there after it; later calls may write them again
  induction files generalizing linked p calls with
  | nil =>
    cases h
    exact ⟨⟨[], .done linked _⟩, ⟨calls, hp⟩, fun _ hf => nomatch hf⟩
  | cons f rest ih =>
    unfold callAuxiliaries at h
    split at h
    · cases h
    · next hname =>
      have hcrate : isCrateName f.crate = true := by simpa using hname
      have hslash := AuxiliaryFile.not_slash_task hcrate linked
      split at h
      · next p₁ hcall =>
        obtain ⟨⟨calls₁, hp₁⟩, bytes, hperm⟩ := htidy.call hp hslash hcall
        obtain ⟨⟨written, hwritten⟩, hmachine, hvalid⟩ := ih hp₁ h
        refine ⟨⟨bytes :: written, .next hcall (hperm.mem_iff.2 ?_) hwritten⟩, hmachine, ?_⟩
        · exact Listing.mem_write _ _ _
        · exact List.forall_mem_cons.2 ⟨hcrate, hvalid⟩
      · next hstopped => exact absurd h (hstopped p')

/-- Compiles that have written something are those that were made. -/
theorem Wrote.callAuxiliaries_eq {linked : List String} {files : List AuxiliaryFile}
    {p p' : CompileProgress} {written : List (List UInt8)} (h : t.Wrote linked files p written p')
    (hvalid : ∀ f ∈ files, isCrateName f.crate = true) :
    t.callAuxiliaries linked files p = (.ok true, p') := by
  induction h with
  | done => rfl
  | next hcall _ _ ih =>
    obtain ⟨hcrate, hvalid⟩ := List.forall_mem_cons.1 hvalid
    simp only [callAuxiliaries, hcrate, hcall, ih hvalid]
    rfl

/-- If all crates are different and new, each of them has its own file afterwards. -/
theorem Wrote.scratch_perm {linked : List String} {files : List AuxiliaryFile} {p p' : CompileProgress}
    {written : List (List UInt8)} (h : t.Wrote linked files p written p') (htidy : t.Tidy m)
    {calls : List CompilerCall} (hp : p.machine = { m with calls := calls })
    (hvalid : ∀ f ∈ files, isCrateName f.crate = true) (hnodup : (files.map (·.crate)).Nodup)
    (hnew : ∀ f ∈ files, ∀ e ∈ p.scratch, e.1 ≠ crateFileName f.crate) :
    p'.scratch.Perm ((files.zip written).map fileOf ++ p.scratch) := by
  induction h generalizing calls with
  | done => exact .refl _
  | @next linked f rest p p₁ p' bytes written hcall hbytes _ ih =>
    obtain ⟨hcrate, hvalid⟩ := List.forall_mem_cons.1 hvalid
    obtain ⟨hf, hnodup⟩ := List.nodup_cons.1 hnodup
    obtain ⟨hfnew, hnew⟩ := List.forall_mem_cons.1 hnew
    have hslash := AuxiliaryFile.not_slash_task hcrate linked
    obtain ⟨⟨calls₁, hp₁⟩, _, hwrite⟩ := htidy.call hp hslash hcall
    -- the first call adds its file, whose name none of the later ones has
    have hperm : p₁.scratch.Perm (fileOf (f, bytes) :: p.scratch) :=
      Listing.perm_of_write_new hfnew hwrite hbytes
    have hnext := ih hp₁ hvalid hnodup fun g hg e he => by
      rcases List.mem_cons.1 (hperm.mem_iff.1 he) with rfl | hold
      · exact fun heq => hf (List.mem_map.2 ⟨g, hg, (crateFileName_inj heq).symm⟩)
      · exact hnew g hg e hold
    calc p'.scratch.Perm ((rest.zip written).map fileOf ++ p₁.scratch) := hnext
      _ |>.Perm ((rest.zip written).map fileOf ++ fileOf (f, bytes) :: p.scratch) := hperm.append_left _
      _ |>.Perm (fileOf (f, bytes) :: ((rest.zip written).map fileOf ++ p.scratch)) := List.perm_middle

end Toolchain

namespace CompileRequest

variable {r : CompileRequest} {t : Toolchain} {m : Machine} {s : ArtifactStore}

/-- `r.Written t m written library left`: the compiles of the files of a request have written the listed
bytes and that of the unit `library`, and then the scratch directory held the files `left`. -/
def Written (r : CompileRequest) (t : Toolchain) (m : Machine) (written : List (List UInt8))
    (library : List UInt8) (left : Listing) : Prop :=
  ∃ p p', t.Wrote [] r.auxiliaries ⟨m, [], []⟩ written p ∧
    t.call (r.primaryTask (r.auxiliaries.map (·.crate))) p = (.ok true, p') ∧
    (libraryFileName r.primaryName, library) ∈ p'.scratch ∧ left = p'.scratch

theorem Written.length_eq {written : List (List UInt8)} {library : List UInt8} {left : Listing}
    (h : r.Written t m written library left) : written.length = r.auxiliaries.length := by
  obtain ⟨_, _, hwrote, -⟩ := h
  exact hwrote.length_eq

/-- A store with one artifact for each source of a request, made of the bytes that the call for the source
has written, and with no other. -/
structure Complete (r : CompileRequest) (s : ArtifactStore) (written : List (List UInt8))
    (library : List UInt8) : Prop where
  primary : s.get? r.primaryName = some ⟨.primary, library, r.primarySource⟩
  auxiliary : ∀ f bytes, (f, bytes) ∈ r.auxiliaries.zip written →
    s.get? f.crate = some ⟨.auxiliary, bytes, f.contents⟩
  nothingElse : ∀ name a, s.get? name = some a →
    name = r.primaryName ∨ ∃ f ∈ r.auxiliaries, f.crate = name

/-- The names that the sources of a request compile to. -/
def names (r : CompileRequest) : List String := r.primaryName :: r.auxiliaries.map (·.crate)

/-- The libraries of a request whose calls have written certain bytes. -/
def libraries (r : CompileRequest) (written : List (List UInt8)) (library : List UInt8) :
    List ProducedLibrary :=
  ⟨r.primaryName, library⟩ :: (r.auxiliaries.zip written).map fun e => ⟨e.1.crate, e.2⟩

theorem names_libraries {written : List (List UInt8)} (library : List UInt8)
    (hlength : written.length = r.auxiliaries.length) :
    (r.libraries written library).map (·.name) = r.names := by
  have hcrates : ((r.auxiliaries.zip written).map fun e => e.1.crate) = r.auxiliaries.map (·.crate) := by
    have hfst := congrArg (List.map AuxiliaryFile.crate)
      (List.map_fst_zip (Nat.le_of_eq hlength.symm : r.auxiliaries.length ≤ written.length))
    rwa [List.map_map] at hfst
  rw [libraries, names, List.map_cons, List.map_map, ← hcrates]
  rfl

/-- The libraries of a request are the ones in the files that are left. -/
theorem ofFiles_perm_libraries {written : List (List UInt8)} {library : List UInt8} {files : Listing}
    (h : files.Perm
      ((libraryFileName r.primaryName, library) :: (r.auxiliaries.zip written).map Toolchain.fileOf)) :
    (ProducedLibrary.ofFiles files).Perm (r.libraries written library) := by
  have hauxiliary : ProducedLibrary.ofFile? ∘ Toolchain.fileOf
      = fun e => some (⟨e.1.crate, e.2⟩ : ProducedLibrary) := by
    funext e
    rw [Function.comp_apply, Toolchain.fileOf, ProducedLibrary.ofFile?_crateFileName]
  have hfound := h.filterMap ProducedLibrary.ofFile?
  rw [List.filterMap_cons_some (ProducedLibrary.ofFile?_libraryFileName _ _), List.filterMap_map, hauxiliary,
    List.filterMap_eq_map'] at hfound
  exact (List.mergeSort_perm _ _).trans hfound

theorem auxiliary?_primaryName (h : r.names.Nodup) : r.auxiliary? r.primaryName = none := by
  rw [Option.eq_none_iff_forall_ne_some]
  intro f hf
  obtain ⟨hmem, hcrate⟩ := mem_of_auxiliary? hf
  exact (List.nodup_cons.1 h).1 (List.mem_map.2 ⟨f, hmem, hcrate⟩)

theorem auxiliary?_crate (h : r.names.Nodup) {f : AuxiliaryFile} (hf : f ∈ r.auxiliaries) :
    r.auxiliary? f.crate = some f := by
  obtain ⟨g, hg⟩ := auxiliary?_isSome hf
  obtain ⟨hmem, hcrate⟩ := mem_of_auxiliary? hg
  rw [hg, List.inj_on_of_nodup_map (List.nodup_cons.1 h).2 hmem hf hcrate]

/-- If all names are different, the libraries of a request are collected to a complete store. -/
theorem complete_attribute {written : List (List UInt8)} {library : List UInt8}
    (hlength : written.length = r.auxiliaries.length) (hnodup : r.names.Nodup) (toolchain : Option String) :
    r.Complete (r.attribute (r.libraries written library) toolchain) written library := by
  have hlibraries : ((r.libraries written library).map (·.name)).Nodup := by
    rw [names_libraries library hlength]
    exact hnodup
  -- the unit's own library, those of the files, and no others
  refine ⟨?_, ?_, ?_⟩
  · refine (get?_attribute hlibraries).2 ⟨_, List.mem_cons_self, rfl, ?_⟩
    simp only [ProducedLibrary.attribute?, auxiliary?_primaryName hnodup, Text.startsWith_self, if_true]
  · intro f bytes he
    refine (get?_attribute hlibraries).2
      ⟨⟨f.crate, bytes⟩, List.mem_cons_of_mem _ (List.mem_map.2 ⟨_, he, rfl⟩), rfl, ?_⟩
    simp only [ProducedLibrary.attribute?, auxiliary?_crate hnodup (List.of_mem_zip he).1]
  · intro name a hget
    obtain ⟨p, hp, rfl, -⟩ := (get?_attribute hlibraries).1 hget
    rcases List.mem_cons.1 hp with rfl | hp
    · exact .inl rfl
    · obtain ⟨e, he, rfl⟩ := List.mem_map.1 hp
      exact .inr ⟨e.1, (List.of_mem_zip he).1, rfl⟩

/-- A complete store tells the sources of a request apart. -/
theorem Complete.nodup {written : List (List UInt8)} {library : List UInt8}
    (h : r.Complete s written library) (hsourced : r.Sourced s)
    (hlength : written.length = r.auxiliaries.length) (hfiles : (r.auxiliaries.map (·.hash)).Nodup) :
    r.names.Nodup := by
  -- the artifact of a file's crate holds the contents of that file
  have hcontents : ∀ f ∈ r.auxiliaries, ∃ a, s.get? f.crate = some a ∧ a.source = f.contents := by
    intro f hf
    rw [← List.map_fst_zip (Nat.le_of_eq hlength.symm)] at hf
    obtain ⟨⟨g, bytes⟩, he, rfl⟩ := List.mem_map.1 hf
    exact ⟨_, h.auxiliary g bytes he, rfl⟩
  refine List.nodup_cons.2 ⟨fun hunit => ?_, ?_⟩
  · -- a file with the crate of the unit would make the unit's artifact an auxiliary one
    obtain ⟨f, hf, hcrate⟩ := List.mem_map.1 hunit
    have hkind := hsourced.kind_of_crate hf (hcrate ▸ h.primary)
    cases hkind
  · -- two files with one crate would have their contents from one artifact
    refine List.Nodup.map_on (fun f hf g hg hcrate => ?_) (List.Nodup.of_map _ hfiles)
    obtain ⟨a, ha, hf'⟩ := hcontents f hf
    obtain ⟨a', ha', hg'⟩ := hcontents g hg
    rw [hcrate] at ha
    obtain rfl : a = a' := Option.some.inj (ha.symm.trans ha')
    refine List.inj_on_of_nodup_map hfiles hf hg ?_
    rw [AuxiliaryFile.hash, AuxiliaryFile.hash, ← hf', ← hg']

/-- If all names are different, the files that are left are one for each source. -/
theorem Written.left_perm {written : List (List UInt8)} {library : List UInt8} {left : Listing}
    (h : r.Written t m written library left) (htidy : t.Tidy m) (hunit : '/' ∉ r.primaryName.toList)
    (hvalid : ∀ f ∈ r.auxiliaries, isCrateName f.crate = true) (hnodup : r.names.Nodup) :
    left.Perm
      ((libraryFileName r.primaryName, library) :: (r.auxiliaries.zip written).map Toolchain.fileOf) := by
  obtain ⟨p, p', hwrote, hcall, hlibrary, rfl⟩ := h
  obtain ⟨hprimary, hcrates⟩ := List.nodup_cons.1 hnodup
  have hm : (⟨m, [], []⟩ : CompileProgress).machine = { m with calls := m.calls } := rfl
  -- the files were written one after another, each under its own name
  have hfiles := hwrote.scratch_perm htidy hm hvalid hcrates (fun _ _ _ he => nomatch he)
  rw [List.append_nil] at hfiles
  have hcalls := hwrote.callAuxiliaries_eq hvalid
  obtain ⟨-, ⟨calls, hp⟩, -⟩ := htidy.exists_wrote hm hcalls
  obtain ⟨-, _, hwrite⟩ := htidy.call hp (not_slash_primaryTask hunit _) hcall
  -- the unit's name is none of theirs, so its library overwrites nothing
  have hnew : ∀ e ∈ p.scratch, e.1 ≠ libraryFileName r.primaryName := by
    intro e he heq
    obtain ⟨⟨f, _⟩, hf, rfl⟩ := List.mem_map.1 (hfiles.mem_iff.1 he)
    exact hprimary (List.mem_map.2
      ⟨f, (List.of_mem_zip hf).1, eq_of_crateFileName_eq_libraryFileName heq⟩)
  exact (Listing.perm_of_write_new hnew hwrite hlibrary).trans (hfiles.cons _)

/-- The files of a request that were compiled have the names of crates, and something was written for each
source of the request. -/
theorem exists_written (htidy : t.Tidy m) (hunit : '/' ∉ r.primaryName.toList) {p : CompileProgress}
    (h : t.callAll r ⟨m, [], []⟩ = (.ok true, p)) :
    (∀ f ∈ r.auxiliaries, isCrateName f.crate = true) ∧
      ∃ written library, r.Written t m written library p.scratch := by
  obtain ⟨p₁, hfiles, hlast⟩ := Toolchain.callAll_eq_ok h
  have hm : (⟨m, [], []⟩ : CompileProgress).machine = { m with calls := m.calls } := rfl
  obtain ⟨⟨written, hwrote⟩, ⟨calls, hp⟩, hvalid⟩ := htidy.exists_wrote hm hfiles
  obtain ⟨-, library, hperm⟩ := htidy.call hp (not_slash_primaryTask hunit _) hlast
  have hlibrary : (libraryFileName r.primaryName, library) ∈ p.scratch :=
    hperm.mem_iff.2 (Listing.mem_write _ _ _)
  exact ⟨hvalid, written, library, p₁, p, hwrote, hlast, hlibrary, rfl⟩

/-- What was written is what the calls of the request have written. -/
theorem Written.left_eq {written : List (List UInt8)} {library : List UInt8} {left : Listing}
    (h : r.Written t m written library left) (hvalid : ∀ f ∈ r.auxiliaries, isCrateName f.crate = true)
    {p : CompileProgress} (hcalls : t.callAll r ⟨m, [], []⟩ = (.ok true, p)) : left = p.scratch := by
  obtain ⟨q, q', hwrote, hunit, -, rfl⟩ := h
  obtain ⟨p₁, hfiles, hlast⟩ := Toolchain.callAll_eq_ok hcalls
  obtain rfl : q = p₁ := congrArg Prod.snd ((hwrote.callAuxiliaries_eq hvalid).symm.trans hfiles)
  obtain rfl : q' = p := congrArg Prod.snd (hunit.symm.trans hlast)
  rfl

/-- If all names are different, all that counts of the files that are left is what was written. -/
theorem Written.attribute_eq {written : List (List UInt8)} {library : List UInt8} {left : Listing}
    (h : r.Written t m written library left) (htidy : t.Tidy m) (hunit : '/' ∉ r.primaryName.toList)
    (hvalid : ∀ f ∈ r.auxiliaries, isCrateName f.crate = true) (hnodup : r.names.Nodup) {files : Listing}
    (hfiles : files.Perm left) (toolchain : Option String) :
    r.attribute (ProducedLibrary.ofFiles files) toolchain
      = r.attribute (r.libraries written library) toolchain := by
  have hlibraries := ofFiles_perm_libraries (hfiles.trans (h.left_perm htidy hunit hvalid hnodup))
  refine attribute_perm ?_ hlibraries _
  rw [(hlibraries.map _).nodup_iff, names_libraries library h.length_eq]
  exact hnodup

/-- What a tidy compiler leaves is collected to a complete store just if all names are different. -/
theorem Written.complete_iff {written : List (List UInt8)} {library : List UInt8} {left : Listing}
    (h : r.Written t m written library left) (htidy : t.Tidy m) (hunit : '/' ∉ r.primaryName.toList)
    (hvalid : ∀ f ∈ r.auxiliaries, isCrateName f.crate = true)
    (hfiles : (r.auxiliaries.map (·.hash)).Nodup) (toolchain : Option String) :
    r.Complete (r.attribute (ProducedLibrary.ofFiles left) toolchain) written library ↔ r.names.Nodup := by
  refine ⟨fun hcomplete => hcomplete.nodup (r.sourced_attribute _ _) h.length_eq hfiles, fun hnodup => ?_⟩
  rw [h.attribute_eq htidy hunit hvalid hnodup (.refl left)]
  exact complete_attribute h.length_eq hnodup _

/-- If all calls of a tidy compiler succeed, so does the compile. -/
theorem exists_success (htidy : t.Tidy m) (hunit : '/' ∉ r.primaryName.toList)
    (h : (t.callAll r ⟨m, [], []⟩).1 = .ok true) :
    ∃ s diagnostics m', r.run t m = (.ok (.succeed s diagnostics), m') := by
  obtain ⟨p, hp⟩ : ∃ p, t.callAll r ⟨m, [], []⟩ = (.ok true, p) := ⟨_, Prod.ext h rfl⟩
  obtain ⟨-, written, library, _, _, -, -, hlibrary, hleft⟩ := exists_written htidy hunit hp
  -- the unit's library was left behind, and is one of those that are collected
  have hproduced : ⟨r.primaryName, library⟩ ∈ ProducedLibrary.ofFiles p.scratch := by
    have hfile := ProducedLibrary.ofFile?_libraryFileName r.primaryName library
    exact (List.mergeSort_perm _ _).mem_iff.2 (List.mem_filterMap.2 ⟨_, hleft ▸ hlibrary, hfile⟩)
  obtain ⟨primary, hprimary⟩ :=
    Option.isSome_iff_exists.1 (r.isSome_get?_attribute hproduced (some t.fingerprint))
  refine ⟨r.attribute (ProducedLibrary.ofFiles p.scratch) (some t.fingerprint), p.diagnostics,
    p.machine, ?_⟩
  rw [run, hp]
  simp only [collect, hprimary]

end CompileRequest

/-! ## Blocks -/

namespace Block

/-- Each source of a block has written something when a tidy compiler has succeeded. What was collected is
complete just if all sources compile to different names, and then the order in which the files are found
does not matter. -/
theorem complete_iff_nodup {b : Block} {t : Toolchain} {m m' : Machine} {s : ArtifactStore}
    {diagnostics : List Diagnostic} {message : String} (hfiles : b.hashes.Nodup) (htidy : t.Tidy m)
    (hrun : b.job.run t m = (.ok (.success s diagnostics message), m')) :
    (∃ written library left, b.job.request.Written t m written library left) ∧
      ∀ written library left, b.job.request.Written t m written library left →
        (b.job.request.Complete s written library ↔ (b.artifactName :: b.files.map (·.crate)).Nodup) ∧
        ((b.artifactName :: b.files.map (·.crate)).Nodup → ∀ files : Listing, files.Perm left →
          b.job.request.attribute (ProducedLibrary.ofFiles files) (some t.fingerprint) = s) := by
  have hunit : '/' ∉ b.job.request.primaryName.toList := BlockId.not_slash_artifactName b.id
  obtain ⟨p, hcalls, -, hs, -⟩ := CompileRequest.run_eq_success hrun
  obtain ⟨hvalid, written, library, hwritten⟩ := CompileRequest.exists_written htidy hunit hcalls
  refine ⟨⟨written, library, p.scratch, hwritten⟩, fun written library left hwritten => ?_⟩
  -- what was written is determined by the run
  obtain rfl := hwritten.left_eq hvalid hcalls
  refine ⟨?_, fun hnodup files hsame => ?_⟩
  · rw [hs]
    exact hwritten.complete_iff htidy hunit hvalid hfiles _
  · rw [hs, hwritten.attribute_eq htidy hunit hvalid hnodup hsame,
      hwritten.attribute_eq htidy hunit hvalid hnodup (.refl _)]

end Block

/-! ## A tidy compiler -/

/-- The paths that arguments ask to write. -/
def outputPaths : List String → List String
  | [] => []
  | "-o" :: path :: rest => path :: outputPaths (path :: rest)
  | _ :: rest => outputPaths rest

/-- A compiler that succeeds if it is asked for one file in `/s`, and then writes its path there. -/
def Compiler.obedient : Compiler where
  version := ⟨true, [], []⟩
  compile _ call files :=
    match outputPaths call.arguments with
    | [path] =>
      match Text.stripStart? path "/s/" with
      | some file => (.ok ⟨true, [], []⟩, files.write file (Text.Utf8.encode path))
      | none => (.ok ⟨false, [], []⟩, files)
    | _ => (.ok ⟨false, [], []⟩, files)

/-- A file is joined to its directory by one slash. -/
theorem Path.join_of_not_slash {directory file : String} (hfile : '/' ∉ file.toList)
    (hdirectory : directory ≠ "") (hend : directory.toList.getLast? ≠ some '/') :
    join directory file = directory ++ "/" ++ file := by
  have hrelative : ¬ isAbsolute file = true := by
    intro hstart
    obtain ⟨rest, heq⟩ := List.isPrefixOf_iff_prefix.1 hstart
    rw [← heq] at hfile
    exact hfile List.mem_cons_self
  rw [join, if_neg (not_or_intro hrelative hdirectory), if_neg hend]

/-- A path behind the flag is one of the output paths. -/
theorem mem_outputPaths {path : String} {arguments : List String} (h : ["-o", path] <:+: arguments) :
    path ∈ outputPaths arguments := by
  obtain ⟨before, rest, rfl⟩ := h
  induction before with
  | nil => exact List.mem_cons_self
  | cons argument before ih =>
    show path ∈ outputPaths (argument :: (before ++ ["-o", path] ++ rest))
    unfold outputPaths
    split
    · -- one argument more in front: none at all, the flag itself, or another one
      next h => cases h
    · next heq =>
      obtain ⟨-, heq⟩ := List.cons.inj heq
      rw [← heq]
      exact List.mem_cons_of_mem _ ih
    · next heq =>
      obtain ⟨-, heq⟩ := List.cons.inj heq
      rw [← heq]
      exact ih

/-- The obedient compiler writes under the name that it is asked for. -/
theorem Compiler.tidy_obedient : Compiler.obedient.Tidy "/s" := by
  intro earlier call files output left file hanswer hok hasks
  obtain ⟨hslash, hinfix⟩ := hasks
  have hmem := mem_outputPaths hinfix
  have hdirectory : "/s" ++ "/" = "/s/" := by decide
  rw [Path.join_of_not_slash hslash (by decide) (by decide), hdirectory] at hmem
  unfold obedient at hanswer
  simp only at hanswer
  split at hanswer
  · -- one output path is asked for, the file in the scratch directory
    next path hpath =>
    rw [hpath, List.mem_singleton] at hmem
    rw [← hmem, Text.stripStart?_append] at hanswer
    cases hanswer
    exact ⟨_, .refl _⟩
  · cases hanswer
    cases hok

/-- A machine with nothing but this compiler. -/
def Machine.obedient : Machine where
  files := ⟨[("c", .program .obedient)]⟩
  here := []
  searchPath := []
  loader _ := .unreadable "no library"
  scratch := "/s"
  calls := []

/-- The toolchain of that machine. -/
def Toolchain.obedient : Toolchain := ⟨{ compiler := "/c" }, "c"⟩

theorem Toolchain.tidy_obedient : Toolchain.obedient.Tidy .obedient := by
  intro calls arguments c directory hspawn
  unfold Machine.spawn at hspawn
  split at hspawn
  · cases hspawn
  · cases hspawn
    exact Compiler.tidy_obedient

/-- A block with one file, which has a name and no contents. -/
def Block.linking (name : String) : Block :=
  { id := "b", fragments := {}, shape := .standard, files := [⟨name, ""⟩] }

namespace Block

theorem hashes_linking (name : String) : (linking name).hashes.Nodup := List.nodup_singleton _

/-- What a compile of such a block leaves, if the compiler was called for both sources. -/
theorem exists_success_linking (name : String)
    (h : (Toolchain.obedient.callAll (linking name).job.request ⟨.obedient, [], []⟩).1 = .ok true) :
    ∃ s diagnostics m', (linking name).job.run .obedient .obedient = (.ok (.succeed s diagnostics), m') :=
  CompileRequest.exists_success Toolchain.tidy_obedient (BlockId.not_slash_artifactName "b") h

/-- With names apart, the library of each source is among the artifacts. -/
theorem complete_linking : ∃ s diagnostics message m', (linking "u.rs").hashes.Nodup ∧
    Toolchain.obedient.Tidy .obedient ∧
    (linking "u.rs").job.run .obedient .obedient = (.ok (.success s diagnostics message), m') ∧
    ∃ written library left, (linking "u.rs").job.request.Written .obedient .obedient written library left ∧
      (linking "u.rs").job.request.Complete s written library := by
  obtain ⟨s, diagnostics, m', hrun⟩ := exists_success_linking "u.rs" (by decide +kernel)
  obtain ⟨⟨written, library, left, hwritten⟩, hall⟩ :=
    complete_iff_nodup (hashes_linking "u.rs") Toolchain.tidy_obedient hrun
  have hnodup : ((linking "u.rs").artifactName :: (linking "u.rs").files.map (·.crate)).Nodup := by
    decide +kernel
  exact ⟨s, diagnostics, _, m', hashes_linking "u.rs", Toolchain.tidy_obedient, hrun, written, library, left,
    hwritten, (hall written library left hwritten).1.2 hnodup⟩

/-- With a file that has the crate of the unit, a compile succeeds and its store is not complete. -/
theorem not_complete_linking : ∃ s diagnostics message m', (linking "unit_b.rs").hashes.Nodup ∧
    Toolchain.obedient.Tidy .obedient ∧
    (linking "unit_b.rs").job.run .obedient .obedient = (.ok (.success s diagnostics message), m') ∧
    ∀ written library, ¬ (linking "unit_b.rs").job.request.Complete s written library := by
  obtain ⟨s, diagnostics, m', hrun⟩ := exists_success_linking "unit_b.rs" (by decide +kernel)
  refine ⟨s, diagnostics, _, m', hashes_linking "unit_b.rs", Toolchain.tidy_obedient, hrun, ?_⟩
  intro written library hcomplete
  have hcrate : AuxiliaryFile.crate ⟨"unit_b.rs", ""⟩ = (linking "unit_b.rs").job.request.primaryName := by
    decide +kernel
  have hkind := (CompileRequest.sourced_of_run hrun).kind_of_crate (f := ⟨"unit_b.rs", ""⟩)
    (List.mem_singleton_self _) (hcrate ▸ hcomplete.primary)
  cases hkind

end Block

end CircuitBlocks
