import Mathlib.Data.List.Nodup
import JackSyntax.Proofs.Store.Locations

/-!
# Names of artifacts

An artifact is named after its source: without the ending of the source, with the suffix of its kind
and the ending of artifacts. Where neither of these has a slash, it stands directly in its directory
(`outputPath_eq_child`), so that all artifacts of one directory are apart if their names are.

## Main statements

* `Path.stem_append_suffix`: a name is divided before its ending.
* `targets_eq`: where the artifacts of a source go, by their names.
* `nodup_targetNames`: when no two artifacts have one name.
-/

namespace JackSyntax

variable {o : ArtifactOptions} {p q : Path} {units : List Path} {suffix : String}

namespace Path

/-! ### Stems -/

/-- Nothing of a name is lost when it is split. -/
theorem splitName_append (name : String) : (splitName name).1 ++ (splitName name).2 = name := by
  rw [splitName]
  split
  · exact String.append_empty
  · rename_i hsplit
    have hreverse : name.toList.reverse.takeWhile (· != '.') ++
        name.toList.reverse.dropWhile (· != '.') = name.toList.reverse :=
      List.takeWhile_append_dropWhile
    -- The reversed name goes on with a dot after the reversed ending.
    cases hdropped : name.toList.reverse.dropWhile (· != '.') with
    | nil => simp [hdropped] at hsplit
    | cons c rest =>
      have hdot : c = '.' := by
        have hhead := List.head_dropWhile_not (· != '.')
          (by rw [hdropped]; exact List.cons_ne_nil c rest)
        simpa [hdropped] using hhead
      have hname := congrArg List.reverse hreverse
      rw [hdropped, hdot, List.reverse_append, List.reverse_cons, List.reverse_reverse] at hname
      apply String.toList_inj.1
      simpa [hdropped, String.toList_append] using hname

/-- The stem and the suffix make up the last name of a path. -/
theorem stem_append_suffix (p : Path) : p.stem ++ p.suffix = p.name :=
  splitName_append p.name

/-- A name with an ending has something before it. -/
theorem stem_ne_empty (h : p.suffix ≠ "") : p.stem ≠ "" := by
  rw [suffix, splitName] at h
  rw [stem, splitName]
  split at h
  · exact absurd rfl h
  · rename_i hsplit
    rw [if_neg hsplit]
    intro hstem
    have hnil := congrArg String.toList hstem
    simp_all

/-! ### Plain names -/

/-- A text without slashes is one segment. -/
theorem segments_of_not_mem {text : List Char} (h : '/' ∉ text) : segments text = [text] := by
  induction text with
  | nil => rfl
  | cons c text ih =>
    obtain ⟨hc, htext⟩ := not_or.1 (mt List.mem_cons.2 h)
    rw [segments, if_neg (Ne.symm hc), ih htext]

/-- A text without slash is the name of a path, unless it is dropped. -/
theorem ofString_of_not_mem {name : String} (h : '/' ∉ name.toList) (hempty : name ≠ "")
    (hdot : name ≠ ".") : ofString name = ⟨.relative, [name]⟩ := by
  have hroot : rootOf name.toList = .relative := by
    cases hlist : name.toList with
    | nil => rfl
    | cons c text =>
      have hc : c ≠ '/' := fun hc ↦ h (by rw [hlist, hc]; exact List.mem_cons_self)
      unfold rootOf
      split <;> simp_all
  simp [ofString, hroot, segments_of_not_mem h, hempty, hdot]

/-- Entries of a directory have different paths if they have different names. -/
theorem child_injective (p : Path) {name name' : String} (h : p.child name = p.child name') :
    name = name' := by
  simpa [child] using h

end Path

/-! ### Where artifacts go -/

/-- Where the artifacts of a file go: its listing, if there are listings, and its tree. -/
def targets (o : ArtifactOptions) (p : Path) : List Path :=
  (if o.writeTokens then [outputPath p o o.tokenSuffix] else []) ++ [outputPath p o ""]

/-- A source has an artifact for each target. -/
theorem map_path_sourceArtifacts {source : Source} {artifacts : List Artifact}
    (h : sourceArtifacts source p o = .ok artifacts) :
    artifacts.map Artifact.path = targets o p := by
  obtain ⟨listing, tree, -, -, rfl⟩ := Source.artifacts_eq h
  by_cases htokens : o.writeTokens = true <;> simp [targets, htokens]

/-- The name of an artifact of the source. -/
def targetName (o : ArtifactOptions) (p : Path) (suffix : String) : String :=
  p.stem ++ suffix ++ "." ++ o.extension

/-- The names of the artifacts of a source. -/
def targetNames (o : ArtifactOptions) (p : Path) : List String :=
  (if o.writeTokens then [targetName o p o.tokenSuffix] else []) ++ [targetName o p ""]

/-- Neither names nor endings hold a slash, and no source has the name that listings make of another
one, or its own. -/
structure PlainNames (o : ArtifactOptions) (units : List Path) : Prop where
  extension : '/' ∉ o.extension.toList
  tokenSuffix : o.writeTokens = true → '/' ∉ o.tokenSuffix.toList
  name : ∀ q ∈ units, '/' ∉ q.name.toList
  stem : o.writeTokens = true → ∀ p ∈ units, ∀ q ∈ units, p.stem ++ o.tokenSuffix ≠ q.stem

/-- With plain names an artifact is an entry of the directory for artifacts. -/
theorem outputPath_eq_child (hstem : p.stem ≠ "") (hname : '/' ∉ p.name.toList)
    (hsuffix : '/' ∉ suffix.toList) (hextension : '/' ∉ o.extension.toList) :
    outputPath p o suffix = (o.outputDir.getD p.parent).child (targetName o p suffix) := by
  have hslash : '/' ∉ (targetName o p suffix).toList := by
    rw [← p.stem_append_suffix, String.toList_append, List.mem_append, not_or] at hname
    simp [targetName, String.toList_append, hname.1, hsuffix, hextension]
  -- The stem comes before the dot, so the name is neither empty nor a dot.
  have hlong : 2 ≤ (targetName o p suffix).toList.length := by
    have hpos : 0 < p.stem.toList.length :=
      List.length_pos_iff.2 fun h ↦ hstem (String.toList_inj.1 h)
    simp only [targetName, String.toList_append, List.length_append]
    have hdot : (".".toList).length = 1 := rfl
    omega
  have hempty : targetName o p suffix ≠ "" := fun h ↦ by simp [h] at hlong
  have hdot : targetName o p suffix ≠ "." := fun h ↦ by simp [h] at hlong
  rw [outputPath]
  change Path.join _ (Path.ofString (targetName o p suffix)) = _
  rw [Path.ofString_of_not_mem hslash hempty hdot, Path.join, if_pos rfl]
  rfl

/-- With plain names the targets of a source are entries of the directory for artifacts. -/
theorem targets_eq (h : PlainNames o units) (hp : p ∈ units) (hsuffix : p.suffix = sourceSuffix) :
    targets o p = (targetNames o p).map (o.outputDir.getD p.parent).child := by
  have hstem : p.stem ≠ "" := Path.stem_ne_empty (by rw [hsuffix]; decide)
  have htree : outputPath p o "" = _ :=
    outputPath_eq_child hstem (h.name p hp) (by simp) h.extension
  by_cases htokens : o.writeTokens = true
  · have hlisting : outputPath p o o.tokenSuffix = _ :=
      outputPath_eq_child hstem (h.name p hp) (h.tokenSuffix htokens) h.extension
    simp [targets, targetNames, htokens, htree, hlisting]
  · simp [targets, targetNames, htokens, htree]

/-! ### Names apart -/

/-- Sources of the same stem have the same name. -/
theorem eq_of_stem_eq (hp : p.suffix = sourceSuffix) (hq : q.suffix = sourceSuffix)
    (h : p.stem = q.stem) : p.name = q.name := by
  rw [← p.stem_append_suffix, ← q.stem_append_suffix, hp, hq, h]

/-- The extension is the same for all artifacts, so it cancels. -/
theorem targetName_inj {suffix' : String} :
    targetName o p suffix = targetName o q suffix' ↔ p.stem ++ suffix = q.stem ++ suffix' := by
  simp [targetName, String.append_left_inj]

/-- A source has a name for its tree, and one for its listing if there are listings. -/
theorem mem_targetNames {name : String} : name ∈ targetNames o p ↔
    o.writeTokens = true ∧ name = targetName o p o.tokenSuffix ∨ name = targetName o p "" := by
  by_cases htokens : o.writeTokens = true <;> simp [targetNames, htokens]

/-- Sources of different stems have artifacts of different names. -/
theorem PlainNames.disjoint (h : PlainNames o units) (hp : p ∈ units) (hq : q ∈ units)
    (hne : p.stem ≠ q.stem) : (targetNames o p).Disjoint (targetNames o q) := by
  intro name hnamep hnameq
  rcases mem_targetNames.1 hnamep with ⟨htokens, rfl⟩ | rfl
  · rcases mem_targetNames.1 hnameq with ⟨-, heq⟩ | heq
    · exact hne (by simpa [String.append_left_inj] using targetName_inj.1 heq)
    · exact h.stem htokens p hp q hq (by simpa using targetName_inj.1 heq)
  · rcases mem_targetNames.1 hnameq with ⟨htokens, heq⟩ | heq
    · exact h.stem htokens q hq p hp (by simpa using (targetName_inj.1 heq).symm)
    · exact hne (by simpa using targetName_inj.1 heq)

/-- All artifacts of different sources have different names. -/
theorem nodup_targetNames (h : PlainNames o units) (hsorted : units.Pairwise (·.name < ·.name))
    (hsuffix : ∀ q ∈ units, q.suffix = sourceSuffix) :
    (units.flatMap (targetNames o)).Nodup := by
  refine List.nodup_flatMap.2 ⟨fun p hp ↦ ?_, hsorted.imp_of_mem fun {p q} hp hq hlt ↦ ?_⟩
  · by_cases htokens : o.writeTokens = true
    · have hne : targetName o p o.tokenSuffix ≠ targetName o p "" := fun heq ↦
        h.stem htokens p hp p hp (by simpa using targetName_inj.1 heq)
      simp [targetNames, htokens, hne]
    · simp [targetNames, htokens]
  · refine h.disjoint hp hq fun hstem ↦ ?_
    rw [eq_of_stem_eq (hsuffix p hp) (hsuffix q hq) hstem] at hlt
    exact String.lt_irrefl _ hlt

end JackSyntax
