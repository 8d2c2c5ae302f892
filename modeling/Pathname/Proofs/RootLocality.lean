import Pathname.Proofs.EndSeparator
import Pathname.Proofs.RootGrammar

/-!
# Roots are told by their own text

Normal forms and joins keep the text of a root and write something else behind it. That is sound only
if the text of a root, with anything behind it, has the same root again, although the classifier looks
further than the root ends. A root with a marker ends in its own separator, and then nothing that follows
can change it. The separator of the current drive and a drive without its root directory are open at
their end, and a separator, a colon or the mere end of the path may turn them into something else.

- `Rooted.take_append_of_marked`: roots that are told by their text alone.
- `Rooted.currentDrive_iff`, `Rooted.driveRelative_iff`: what may follow the other two.
- `classify_take_append`: **the main statement**.
-/

namespace Pathname

variable {style : Style} {t u : Text} {root : Root}

namespace Rooted

/-! ## Roots with a marker -/

/-- **A root with a marker is told by its text alone**, whatever stands behind it. -/
theorem take_append_of_marked (h : Rooted style t root) (hle : root.length ≤ t.length)
    (hkind : root.kind ∈ markedKinds) (u : Text) : Rooted style (t.take root.length ++ u) root := by
  cases h with
  | empty | relative | letterColon | currentDrive | driveRelative => contradiction
  | driveAbsolute hletter => exact .driveAbsolute hletter
  | @server s₁ s₂ s₃ host rest hne hplain hvalid =>
    have htake : (host ++ s₃.char :: rest).take (host.length + 1) = host ++ [s₃.char] :=
      List.take_length_add_append 1
    have hserver : Rooted style (s₁.char :: s₂.char :: (host ++ s₃.char :: u)) _ :=
      .server hne hplain hvalid
    simpa [htake] using hserver
  | @home user s rest hplain =>
    have htake : (user ++ s.char :: rest).take (user.length + 1) = user ++ [s.char] :=
      List.take_length_add_append 1
    have hhome : Rooted style ('~' :: (user ++ s.char :: u)) (.homeOf user) := .home hplain
    simpa [Root.homeOf, htake] using hhome
  | bareHome =>
    -- A marker without a separator is shorter than its root.
    exact absurd hle (Nat.not_succ_le_self _)

/-! ## Roots that are open at their end -/

theorem currentDrive_iff {s : Separator} :
    Rooted style (s.char :: u) .currentDrive ↔
      BeginsPlain u ∧ (u.head? = some ':' → s = .slash) := by
  constructor
  · intro h
    obtain ⟨-, s', rest, htext, hplain, hslash⟩ := h.eq_cons_of_currentDrive rfl
    obtain ⟨hchar, rfl⟩ := List.cons.inj htext
    exact ⟨hplain, fun hcolon => (Separator.char_injective hchar).trans (hslash hcolon)⟩
  · rintro ⟨hplain, hslash⟩
    exact .currentDrive hplain hslash

theorem driveRelative_iff {letter : Char} (hletter : letter.isAlpha = true) :
    Rooted style (letter :: ':' :: u) ⟨.driveRelative, 2⟩ ↔
      BeginsPlain u ∧ (u = [] → style.hasBareDrives = true) := by
  constructor
  · intro h
    obtain ⟨-, letter', rest, htext, -, hplain, hbare⟩ := h.eq_cons_of_driveRelative rfl
    obtain ⟨-, hrest⟩ := List.cons.inj htext
    obtain ⟨-, rfl⟩ := List.cons.inj hrest
    exact ⟨hplain, hbare⟩
  · rintro ⟨hplain, hbare⟩
    exact .driveRelative hletter hplain hbare

end Rooted

/-! ## All roots -/

/-- **Roots are told by their own text.** Take a path with its root in it, and the text of the root
with any other text behind it. If the root is that of a drive, a server or a home, with its separator,
it is the root of this text too. If it is the current drive, it is so exactly if no separator follows,
and no colon either where the separator of the root is a backslash. If it is a drive without its root
directory, it is so exactly if no separator follows, and something follows or drives may stand
alone. -/
theorem classify_take_append (hroot : Root.classify style t = some root)
    (hle : root.length ≤ t.length) (u : Text) :
    (root.kind ∈ markedKinds → Root.classify style (t.take root.length ++ u) = some root) ∧
    (root.kind = .currentDrive →
      (Root.classify style (t.take root.length ++ u) = some root ↔
        BeginsPlain u ∧ ¬ (t.head? = some '\\' ∧ u.head? = some ':'))) ∧
    (root.kind = .driveRelative →
      (Root.classify style (t.take root.length ++ u) = some root ↔
        BeginsPlain u ∧ (u ≠ [] ∨ style = .windows))) := by
  have hrooted := rooted_of_classify hroot
  simp only [classify_eq_some_iff]
  refine ⟨fun hkind => ?marked, fun hkind => ?current, fun hkind => ?drive⟩
  case marked =>
    exact hrooted.take_append_of_marked hle hkind u
  case current =>
    obtain ⟨rfl, s, rest, rfl, -, -⟩ := hrooted.eq_cons_of_currentDrive hkind
    show Rooted style (s.char :: u) .currentDrive ↔ _
    rw [Rooted.currentDrive_iff]
    apply and_congr_right
    intro _
    -- The separator is a slash or a backslash, and only the backslash minds a colon.
    cases s <;> simp [Separator.char]
  case drive =>
    obtain ⟨rfl, letter, rest, rfl, hletter, -, -⟩ := hrooted.eq_cons_of_driveRelative hkind
    show Rooted style (letter :: ':' :: u) _ ↔ _
    rw [Rooted.driveRelative_iff hletter]
    apply and_congr_right
    intro _
    cases style <;> simp [Style.hasBareDrives]

/-- Another tail behind a server, a colon behind the backslash of the current drive, and nothing behind
a drive. -/
theorem classify_take_append_of_roots :
    Root.classify .unix "//srv/a/b".toList = some ⟨.server, 6⟩ ∧ 6 ≤ "//srv/a/b".toList.length ∧
    Root.classify .unix "//srv/..\\:".toList = some ⟨.server, 6⟩ ∧
    Root.classify .unix "\\a".toList = some .currentDrive ∧ 1 ≤ "\\a".toList.length ∧
    Root.classify .unix "\\:".toList ≠ some .currentDrive ∧
    Root.classify .unix "C:a".toList = some ⟨.driveRelative, 2⟩ ∧ 2 ≤ "C:a".toList.length ∧
    Root.classify .unix "C:".toList ≠ some ⟨.driveRelative, 2⟩ := by
  have hserver : Root.classify .unix "//srv/a/b".toList = some ⟨.server, 6⟩ := by decide
  have hcurrent : Root.classify .unix "\\a".toList = some .currentDrive := by decide
  have hdrive : Root.classify .unix "C:a".toList = some ⟨.driveRelative, 2⟩ := by decide
  have hmarked := (classify_take_append hserver (by decide) "..\\:".toList).1 (by decide)
  have hcolon := (classify_take_append hcurrent (by decide) ":".toList).2.1 rfl
  have hend := (classify_take_append hdrive (by decide) []).2.2 rfl
  refine ⟨hserver, by decide, hmarked, hcurrent, by decide, fun h => ?_, hdrive, by decide,
    fun h => ?_⟩
  · exact (hcolon.mp h).2 ⟨rfl, rfl⟩
  · exact absurd (hend.mp h).2 (by decide)

end Pathname
