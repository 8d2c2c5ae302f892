import Pathname.Proofs.HostNames
import Pathname.Proofs.RootGrammar

/-!
# The grammar of malformed roots

What the classifier refuses has a grammar of its own: a colon in front, a colon behind something that
names no drive, and two separators without a host behind them. The shapes of rooted paths and those
of malformed ones leave no text out, and no text is both.

- `Malformed`: the shapes that are refused.
- `classify_eq_none_iff`: the classifier refuses exactly these.
- `classify_eq_server_iff`: what it takes for a server.
- `classify_grammar`: **the main statement**, with the length of a root.
-/

namespace Pathname

open Segments (IsPlain)

/-! ## Malformed beginnings -/

/-- The shapes of a path whose beginning is malformed. -/
inductive Malformed : Text → Prop where
  /-- Nothing stands before a colon. -/
  | colon {rest : Text} : Malformed (':' :: rest)
  /-- What stands before a colon is neither a home marker, nor a slash, nor a letter. -/
  | marker {c : Char} {rest : Text} : c ≠ '~' → c ≠ '/' → c.isAlpha = false →
      Malformed (c :: ':' :: rest)
  /-- Two separators, and no separator behind the host. -/
  | openHost {s₁ s₂ : Separator} {rest : Text} : IsPlain rest →
      Malformed (s₁.char :: s₂.char :: rest)
  /-- Three separators: the host is empty. -/
  | emptyHost {s₁ s₂ s₃ : Separator} {rest : Text} :
      Malformed (s₁.char :: s₂.char :: s₃.char :: rest)
  /-- Two separators, and a host that may not name a server. -/
  | badHost {s₁ s₂ s₃ : Separator} {host rest : Text} : IsPlain host → Host.isValid host = false →
      Malformed (s₁.char :: s₂.char :: (host ++ s₃.char :: rest))

variable {style : Style} {t : Text} {root : Root}

theorem drive_eq_none_iff {letter : Char} {rest : Text} :
    Root.drive style letter rest = none ↔ letter.isAlpha = false ∧ letter ≠ '/' := by
  unfold Root.drive
  cases hletter : letter.isAlpha with
  | true => cases rest <;> simp
  | false => simp

theorem malformed_of_server_eq_none {s₁ s₂ : Separator} {rest : Text}
    (h : Root.server rest = none) : Malformed (s₁.char :: s₂.char :: rest) := by
  cases hfind : rest.findIdx? isSeparator with
  | none => exact .openHost (isPlain_of_findIdx? hfind)
  | some i =>
    obtain ⟨host, s₃, after, rfl, hplain, rfl⟩ := eq_append_of_findIdx? hfind
    cases host with
    | nil => exact .emptyHost
    | cons c more =>
      refine .badHost hplain ?_
      rw [Root.server, hfind] at h
      simpa using h

theorem server_of_plain (h : IsPlain t) : Root.server t = none := by
  have hfind : t.findIdx? isSeparator = none :=
    List.findIdx?_eq_none_iff.mpr fun c hc => h c hc
  rw [Root.server, hfind]

theorem server_of_host {host rest : Text} {s : Separator} (hplain : IsPlain host)
    (hvalid : host = [] ∨ Host.isValid host = false) :
    Root.server (host ++ s.char :: rest) = none := by
  rw [Root.server, findIdx?_append_separator hplain]
  cases host with
  | nil => rfl
  | cons c more => simp [hvalid.resolve_left (List.cons_ne_nil c more)]

theorem classify_two_separators (s₁ s₂ : Separator) (rest : Text) :
    Root.classify style (s₁.char :: s₂.char :: rest) = Root.server rest := by
  cases s₁ <;> cases s₂ <;> rfl

theorem malformed_of_classify (h : Root.classify style t = none) : Malformed t := by
  cases t with
  | nil => contradiction
  | cons c rest =>
    -- The tests of the classifier, in its order: colon, home marker, drive, separators.
    simp only [Root.classify] at h
    by_cases hcolon : c = ':'
    · exact hcolon ▸ .colon
    rw [if_neg hcolon] at h
    by_cases hhome : c = '~'
    · -- Whatever follows a home marker is the name of a user.
      simp [hhome] at h
    rw [if_neg hhome] at h
    by_cases hdrive : rest.head? = some ':'
    · rw [if_pos hdrive] at h
      obtain ⟨more, rfl⟩ := List.head?_eq_some_iff.mp hdrive
      obtain ⟨hletter, hslash⟩ := drive_eq_none_iff.mp h
      exact .marker hhome hslash hletter
    rw [if_neg hdrive] at h
    cases hsep : isSeparator c with
    | false => simp [hsep] at h
    | true =>
      obtain ⟨s₁, rfl⟩ := exists_char_of_isSeparator hsep
      cases rest with
      | nil => simp at h
      | cons d more =>
        -- One separator alone is the root of the current drive, so there are two.
        cases hd : isSeparator d with
        | false => simp [hd] at h
        | true =>
          obtain ⟨s₂, rfl⟩ := exists_char_of_isSeparator hd
          exact malformed_of_server_eq_none (by simpa using h)

theorem classify_of_malformed (h : Malformed t) : Root.classify style t = none := by
  cases h with
  | colon => rfl
  | @marker c rest hhome hslash hletter =>
    -- A colon behind a colon is refused for the first of the two.
    by_cases hcolon : c = ':'
    · simp [Root.classify, hcolon]
    · simp [Root.classify, hcolon, hhome, drive_eq_none_iff, hletter, hslash]
  | openHost hplain => rw [classify_two_separators, server_of_plain hplain]
  | emptyHost =>
    have hnil : IsPlain [] := fun _ hc => absurd hc List.not_mem_nil
    rw [classify_two_separators]
    exact server_of_host hnil (.inl rfl)
  | badHost hplain hvalid =>
    rw [classify_two_separators, server_of_host hplain (.inr hvalid)]

/-- **The classifier refuses exactly the malformed beginnings.** -/
theorem classify_eq_none_iff : Root.classify style t = none ↔ Malformed t :=
  ⟨malformed_of_classify, classify_of_malformed⟩

/-! ## Servers -/

theorem classify_eq_server_iff {n : Nat} :
    Root.classify style t = some ⟨.server, n⟩ ↔
      ∃ (s₁ s₂ s₃ : Separator) (host rest : Text),
        t = s₁.char :: s₂.char :: (host ++ s₃.char :: rest) ∧
        host ≠ [] ∧ IsPlain host ∧ Host.isValid host = true ∧ n = host.length + 3 := by
  constructor
  · intro h
    obtain ⟨s₁, s₂, s₃, host, rest, ht, hne, hplain, hvalid, hroot⟩ :=
      (rooted_of_classify h).eq_cons_of_server rfl
    exact ⟨s₁, s₂, s₃, host, rest, ht, hne, hplain, hvalid, congrArg Root.length hroot⟩
  · rintro ⟨s₁, s₂, s₃, host, rest, rfl, hne, hplain, hvalid, rfl⟩
    exact classify_of_rooted (.server hne hplain hvalid)

/-! ## Lengths -/

namespace Rooted

/-- A root is longer than its path exactly if it is that of a home marker with no separator behind
it. -/
theorem length_eq_succ_iff (h : Rooted style t root) :
    root.length = t.length + 1 ↔ t.head? = some '~' ∧ IsPlain t := by
  constructor
  · intro hlength
    obtain ⟨user, hplain, rfl⟩ := h.eq_home_of_length_lt (by omega)
    refine ⟨rfl, fun c hc => ?_⟩
    rcases List.mem_cons.mp hc with rfl | hmem
    · rfl
    · exact hplain c hmem
  · rintro ⟨hhome, hplain⟩
    obtain ⟨user, rfl⟩ := List.head?_eq_some_iff.mp hhome
    have hbare : Rooted style ('~' :: user) (.homeOf user) :=
      .bareHome fun c hc => hplain c (List.mem_cons_of_mem _ hc)
    rw [hbare.unique h]
    simp [Root.homeOf]

end Rooted

/-! ## All together -/

/-- **The grammar of roots.** A path has no root exactly if its beginning is malformed. Its root is a
server exactly if it begins with two separators, a host that may name a server, and one more
separator, and then all of these are the root; and what may name a server is an IPv6 address or a host
name. A root is at most one longer than its path, and longer exactly if the path is a home marker
with no separator behind it; a root that is all in its path has a separator for its last character,
unless there is nothing in it or it is a drive without its root directory. -/
theorem classify_grammar (style : Style) (t : Text) :
    (Root.classify style t = none ↔ Malformed t) ∧
    (∀ n, Root.classify style t = some ⟨.server, n⟩ ↔
      ∃ (s₁ s₂ s₃ : Separator) (host rest : Text),
        t = s₁.char :: s₂.char :: (host ++ s₃.char :: rest) ∧
        host ≠ [] ∧ IsPlain host ∧ Host.isValid host = true ∧ n = host.length + 3) ∧
    (∀ host : Text, host ≠ [] →
      (Host.isValid host = true ↔
        Host.isIpv6 host = true ∨ Host.RegisteredName.IsName host)) ∧
    ∀ root, Root.classify style t = some root →
      root.length ≤ t.length + 1 ∧
      (root.length = t.length + 1 ↔ t.head? = some '~' ∧ IsPlain t) ∧
      (root.kind ≠ .relative → root.kind ≠ .driveRelative → root.length ≤ t.length →
        ∃ (before : Text) (s : Separator) (after : Text),
          t = before ++ s.char :: after ∧ root.length = before.length + 1) := by
  refine ⟨classify_eq_none_iff, fun n => classify_eq_server_iff, fun host => Host.isValid_iff,
    fun root hroot => ?_⟩
  have hrooted := rooted_of_classify hroot
  exact ⟨hrooted.length_le, hrooted.length_eq_succ_iff, hrooted.exists_separator_before⟩

/-- A server with an address for its name. -/
theorem classify_grammar_on_server :
    "::1".toList ≠ [] ∧ (Host.isIpv6 "::1".toList = true ∨
      Host.RegisteredName.IsName "::1".toList) ∧
    Root.classify .unix "\\\\::1/a".toList = some ⟨.server, 6⟩ ∧
    (⟨.server, 6⟩ : Root).kind ≠ .relative ∧ (⟨.server, 6⟩ : Root).kind ≠ .driveRelative ∧
    6 ≤ "\\\\::1/a".toList.length ∧
    ∃ (before : Text) (s : Separator) (after : Text),
      "\\\\::1/a".toList = before ++ s.char :: after ∧ 6 = before.length + 1 := by
  have hne : "::1".toList ≠ [] := by decide
  have hvalid : Host.isValid "::1".toList = true := by decide
  have hroot : Root.classify .unix "\\\\::1/a".toList = some ⟨.server, 6⟩ := by decide
  obtain ⟨-, -, hhosts, hlengths⟩ := classify_grammar .unix "\\\\::1/a".toList
  exact ⟨hne, (hhosts _ hne).mp hvalid, hroot, by decide, by decide, by decide,
    (hlengths _ hroot).2.2 (by decide) (by decide) (by decide)⟩

end Pathname
