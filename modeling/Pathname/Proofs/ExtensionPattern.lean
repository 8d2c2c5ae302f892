import Pathname.Proofs.EndSeparator
import Pathname.Proofs.ExtensionCut
import Pathname.Proofs.GlobEffective

/-!
# Patterns for an extension

An extension can be asked for by name, and it can be asked for by a pattern such as `*.txt`. The
matcher looks for the dot and the extension from the left, goes on to a later place if they are
followed by anything, and knows of neither file names nor separators. What it accepts are the names
that end in the dot and the extension, and as long as the extension holds neither a dot nor a separator,
that dot is the last one of the file name.

- `Glob.isMatch_many_literal_iff`: a pattern with one `*` in front asks for an ending.
- `textAfterDot_eq_iff`: so does an extension.
- `wildcardMatch_extension_iff`: **the main statement**.
-/

namespace Pathname

open Segments (IsPlain)

/-! ## A pattern with one `*` in front -/

namespace Glob

variable {rule : CaseRule} {literal text : Text}

theorem tokens_many_literal (hne : literal ≠ []) (hplain : ∀ c ∈ literal, c ≠ '?' ∧ c ≠ '*') :
    tokens ('*' :: literal) = [.many, .literal literal] := by
  simp [tokens, read, read_of_plain hne hplain, addMany]

/-- **A pattern with one `*` in front asks for an ending.** -/
theorem isMatch_many_literal_iff (hne : literal ≠ [])
    (hplain : ∀ c ∈ literal, c ≠ '?' ∧ c ≠ '*') :
    isMatch rule text ('*' :: literal) = true ↔
      ∃ ending, ending <:+ text ∧ rule.equals ending literal = true := by
  have heffective : effective [.many, .literal literal] = [.many, .literal literal] := rfl
  rw [isMatch_iff_describes, tokens_many_literal hne hplain, heffective, describes_many_iff]
  constructor
  · rintro ⟨ending, hsuffix, hdescribed⟩
    cases hdescribed with
    | @literal _ _ piece _ hequals hnil =>
      -- No token is left for anything behind the literal.
      cases hnil
      exact ⟨piece, by simpa using hsuffix, hequals⟩
  · rintro ⟨ending, hsuffix, hequals⟩
    exact ⟨ending, hsuffix, by simpa using Describes.literal hequals .nil⟩

end Glob

/-! ## The text behind the last dot -/

variable {style : Style} {t before ext found : Text}

theorem lastDot?_of_cut (hdot : '.' ∉ ext) (hplain : IsPlain ext) :
    lastDot? (before ++ '.' :: ext) = some before.length := by
  have hno : ∀ c ∈ ext, (c == '.') = false := by
    intro c hc
    rw [beq_eq_false_iff_ne]
    rintro rfl
    exact hdot hc
  have hstart : lastSegmentStart (before ++ '.' :: ext) ≤ before.length :=
    (lastSegmentStart_le_iff rfl).mpr hplain
  rw [lastDot?, Text.lastIndex?_append_cons rfl hno]
  simp [hstart]

/-- **The text behind the last dot of a file name is an ending.** It is a given text, in which there
is neither a dot nor a separator, exactly if the path ends in a dot and that text. -/
theorem textAfterDot_eq_iff (hne : ext ≠ []) (hdot : '.' ∉ ext) (hplain : IsPlain ext) :
    textAfterDot t (lastDot? t) = ext ↔ '.' :: ext <:+ t := by
  constructor
  · rintro rfl
    cases hlast : lastDot? t with
    | none =>
      rw [hlast] at hne
      exact absurd rfl hne
    | some i =>
      -- The dot that was found stands right in front of the text.
      obtain ⟨hindex, -⟩ := Option.filter_eq_some_iff.mp hlast
      obtain ⟨before, c, after, rfl, rfl, hc, -⟩ := Text.eq_append_of_lastIndex? hindex
      obtain rfl : c = '.' := eq_of_beq hc
      rw [textAfterDot_cut]
      exact List.suffix_append before _
  · rintro ⟨before, rfl⟩
    rw [lastDot?_of_cut hdot hplain, textAfterDot_cut]

theorem extension_eq_textAfterDot (h : extension style t = .ok found) :
    textAfterDot t (lastDot? t) = found := by
  obtain ⟨⟨root, hroot⟩, hnul, hmarker⟩ := not_nameFault_iff.mp (not_nameFault_of_extension h)
  rw [extension_of_extensionDot? hroot hnul (extensionDot?_of_no_marker hmarker)] at h
  exact Except.ok.inj h

/-! ## The pattern and the extension -/

/-- **A pattern for an extension finds the paths with that extension.** Take a path that has an
extension, which may be empty, and any other text that is not empty and holds no dot, no separator and
neither `*` nor `?`. Where case matters, the path matches `*`, a dot and that text exactly if the text
is the extension of the path. -/
theorem wildcardMatch_extension_iff (hfound : extension style t = .ok found) (hne : ext ≠ [])
    (hdot : '.' ∉ ext) (hplain : ∀ c ∈ ext, isSeparator c = false) (hmany : '*' ∉ ext)
    (hone : '?' ∉ ext) :
    Glob.wildcardMatch (CasePolicy.sensitive.rule style) (some t) (some ('*' :: '.' :: ext)) = true ↔
      found = ext := by
  have hliteral : ∀ c ∈ '.' :: ext, c ≠ '?' ∧ c ≠ '*' := by
    intro c hc
    rcases List.mem_cons.mp hc with rfl | hc
    · decide
    · exact ⟨fun h => hone (h ▸ hc), fun h => hmany (h ▸ hc)⟩
  have hending : (∃ ending, ending <:+ t ∧ CaseRule.exact.equals ending ('.' :: ext) = true) ↔
      '.' :: ext <:+ t := by
    simp [CaseRule.exact_equals_iff]
  rw [← extension_eq_textAfterDot hfound, textAfterDot_eq_iff hne hdot hplain, ← hending]
  exact Glob.isMatch_many_literal_iff (List.cons_ne_nil '.' ext) hliteral

/-- A file on a drive, in a folder with the same ending, that has the ending twice. -/
theorem wildcardMatch_extension_on_drive :
    extension .windows "C:a.gz\\b.gz.gz".toList = .ok "gz".toList ∧
    "gz".toList ≠ [] ∧ '.' ∉ "gz".toList ∧ (∀ c ∈ "gz".toList, isSeparator c = false) ∧
    '*' ∉ "gz".toList ∧ '?' ∉ "gz".toList ∧
    Glob.wildcardMatch (CasePolicy.sensitive.rule .windows) (some "C:a.gz\\b.gz.gz".toList)
      (some "*.gz".toList) = true := by
  have hfound : extension .windows "C:a.gz\\b.gz.gz".toList = .ok "gz".toList := by rfl
  have hplain : ∀ c ∈ "gz".toList, isSeparator c = false := by simp [isSeparator]
  have hmatch := (wildcardMatch_extension_iff hfound (by decide) (by decide) hplain (by decide)
    (by decide)).mpr rfl
  exact ⟨hfound, by decide, by decide, hplain, by decide, by decide, hmatch⟩

end Pathname
