import Pathname.Proofs.NameFaults

/-!
# One cut for the extension

The dot before an extension is looked for in the whole path for the extension and for what is left
without it, and once more in the file name for the base name. In the path the last dot may stand in
front of the last separator, where it does not count; in the file name no separator is left. Both
searches find the same dot, so that the four parts belong to one cut.

- `lastDot?_append`: the dot of a path is the dot of its file name.
- `exists_cut`: the cut of a file name.
- `parts_of_one_cut`: **the main statement**.
-/

namespace Pathname

open Segments (IsPlain)

variable {style : Style} {t base ext folder name : Text}

/-! ## The dot of a path -/

/-- A path is what comes up to its last separator, and a file name without separators. -/
theorem exists_folder (t : Text) :
    ∃ folder name, t = folder ++ name ∧ IsPlain name ∧ lastSegmentStart folder = folder.length := by
  have hname := isPlain_drop_lastSegmentStart t
  have hlength : (t.take (lastSegmentStart t)).length = lastSegmentStart t := by
    rw [List.length_take, Nat.min_eq_left (lastSegmentStart_le t)]
  have hstart := lastSegmentStart_append (t.take (lastSegmentStart t)) hname
  rw [List.take_append_drop] at hstart
  exact ⟨_, _, (List.take_append_drop _ t).symm, hname, hstart.symm.trans hlength.symm⟩

theorem lastDot?_of_isPlain (hname : IsPlain name) :
    lastDot? name = Text.lastIndex? (· == '.') name := by
  have hstart : lastSegmentStart name = 0 := lastSegmentStart_append [] hname
  rw [lastDot?, hstart]
  -- Every position counts in a text without separators.
  cases Text.lastIndex? (· == '.') name <;> rfl

/-- **The dot of a path is the dot of its file name.** A dot in front of the last separator counts
for neither. -/
theorem lastDot?_append (hname : IsPlain name) (hfolder : lastSegmentStart folder = folder.length) :
    lastDot? (folder ++ name) = (lastDot? name).map (folder.length + ·) := by
  rw [lastDot?, Text.lastIndex?_append, lastSegmentStart_append folder hname, hfolder,
    lastDot?_of_isPlain hname]
  cases Text.lastIndex? (· == '.') name with
  | some i => simp
  | none =>
    cases hi : Text.lastIndex? (· == '.') folder with
    | none => rfl
    | some i =>
      have hlt := Text.lt_length_of_lastIndex? hi
      simp [hlt]

/-! ## The cut -/

/-- A file name has no dot, or it is cut at its last one. -/
theorem exists_cut (hname : IsPlain name) :
    (lastDot? name = none ∧ '.' ∉ name) ∨
      ∃ base ext, name = base ++ '.' :: ext ∧ lastDot? name = some base.length ∧ '.' ∉ ext := by
  rw [lastDot?_of_isPlain hname]
  cases hi : Text.lastIndex? (· == '.') name with
  | none =>
    left
    refine ⟨rfl, fun hdot => ?_⟩
    have hno := Text.lastIndex?_eq_none_iff.mp hi '.' hdot
    contradiction
  | some i =>
    right
    obtain ⟨base, c, ext, rfl, rfl, hc, hext⟩ := Text.eq_append_of_lastIndex? hi
    obtain rfl : c = '.' := eq_of_beq hc
    refine ⟨base, ext, rfl, rfl, fun hdot => ?_⟩
    have hno := hext '.' hdot
    contradiction

theorem textBeforeDot_cut (before after : Text) :
    textBeforeDot (before ++ '.' :: after) (some before.length) = before :=
  List.take_left

theorem textAfterDot_cut (before after : Text) :
    textAfterDot (before ++ '.' :: after) (some before.length) = after := by
  show (before ++ '.' :: after).drop (before.length + 1) = after
  rw [List.drop_length_add_append]
  rfl

/-- Where there is an extension, nothing stands in its way. -/
theorem not_nameFault_of_extension (h : extension style t = .ok ext) (fault : Fault) :
    ¬ NameFault style t fault := by
  intro hfault
  rw [hfault.fail.2] at h
  contradiction

/-- **The parts of a file name are parts of one cut.** Take a path that has a base name and an
extension. Without its extension it is what comes up to its last separator, and the base name. And
either there is no dot before an extension: then the base name is the file name, which holds no dot,
and the extension is empty. Or file name and path are cut at the same dot into what comes before it
and the extension, in which there is neither a dot nor a separator. -/
theorem parts_of_one_cut {style : Style} {t base ext : Text} (hbase : baseName style t = .ok base)
    (hext : extension style t = .ok ext) :
    ∃ name rest, fileName style t = .ok name ∧ withoutExtension style t = .ok rest ∧
      rest = t.take (lastSegmentStart t) ++ base ∧
      ((extensionDot? style t = .ok none ∧ name = base ∧ ext = [] ∧ '.' ∉ name) ∨
        (name = base ++ '.' :: ext ∧ rest ++ '.' :: ext = t ∧
          extensionDot? style t = .ok (some (lastSegmentStart t + base.length)) ∧
          '.' ∉ ext ∧ ∀ c ∈ ext, isSeparator c = false)) := by
  obtain ⟨⟨root, hroot⟩, hnul, hmarker⟩ := not_nameFault_iff.mp (not_nameFault_of_extension hext)
  have hdot := extensionDot?_of_no_marker hmarker
  have hrest := withoutExtension_of_extensionDot? hnul hdot
  have hfile := fileName_eq hroot hnul
  rw [baseName_of_no_marker hroot hnul hmarker, Except.ok.injEq] at hbase
  rw [extension_of_extensionDot? hroot hnul hdot, Except.ok.injEq] at hext
  obtain ⟨folder, name, rfl, hname, hfolder⟩ := exists_folder t
  have hstart : lastSegmentStart (folder ++ name) = folder.length := by
    rw [lastSegmentStart_append folder hname, hfolder]
  have hlast := lastDot?_append hname hfolder
  rw [hstart, List.drop_left] at hbase hfile
  rw [hstart, List.take_left]
  obtain ⟨hnone, hno⟩ | ⟨before, after, rfl, hcut, hno⟩ := exists_cut hname
  · -- No dot: nothing is cut off.
    rw [hnone] at hbase hlast
    rw [hlast] at hext hrest hdot
    obtain rfl : name = base := hbase
    obtain rfl : [] = ext := hext
    exact ⟨name, _, hfile, hrest, rfl, Or.inl ⟨hdot, rfl, rfl, hno⟩⟩
  · -- The cut of the file name, moved behind the folder, is the cut of the path.
    have hpath : folder ++ (before ++ '.' :: after) = (folder ++ before) ++ '.' :: after :=
      (List.append_assoc ..).symm
    have hlength : (some before.length).map (folder.length + ·) = some (folder ++ before).length :=
      congrArg some (List.length_append ..).symm
    rw [hcut, textBeforeDot_cut] at hbase
    rw [hcut, hlength] at hlast
    rw [hlast, hpath, textAfterDot_cut] at hext
    rw [hlast, hpath, textBeforeDot_cut] at hrest
    rw [hlast, List.length_append] at hdot
    obtain rfl : before = base := hbase
    obtain rfl : after = ext := hext
    rw [← hpath] at hrest
    refine ⟨_, _, hfile, hrest, rfl, Or.inr ⟨rfl, hpath.symm, hdot, hno, ?_⟩⟩
    intro c hc
    exact hname c (List.mem_append_right before (List.mem_cons_of_mem '.' hc))

/-- A file on a drive, behind a folder with a dot in its name. -/
theorem parts_of_one_cut_on_drive :
    baseName .windows "C:x.y\\a.b.c".toList = .ok "a.b".toList ∧
    extension .windows "C:x.y\\a.b.c".toList = .ok "c".toList ∧
    ∃ name rest, fileName .windows "C:x.y\\a.b.c".toList = .ok name ∧
      withoutExtension .windows "C:x.y\\a.b.c".toList = .ok rest ∧
      rest = "C:x.y\\".toList ++ "a.b".toList ∧ name = "a.b".toList ++ '.' :: "c".toList ∧
      rest ++ '.' :: "c".toList = "C:x.y\\a.b.c".toList ∧
      extensionDot? .windows "C:x.y\\a.b.c".toList = .ok (some (6 + 3)) := by
  have hbase : baseName .windows "C:x.y\\a.b.c".toList = .ok "a.b".toList := by rfl
  have hext : extension .windows "C:x.y\\a.b.c".toList = .ok "c".toList := by rfl
  obtain ⟨name, rest, hname, hrest, hfolder, hcut⟩ := parts_of_one_cut hbase hext
  rcases hcut with ⟨-, -, hempty, -⟩ | ⟨hcut, hpath, hdot, -, -⟩
  · contradiction
  · exact ⟨hbase, hext, name, rest, hname, hrest, hfolder, hcut, hpath, hdot⟩

end Pathname
