import Pathname.Proofs.SegmentStack
import Pathname.Root

/-!
# The grammar of roots

The classifier of roots looks at a path from the left and answers at the first hint. Here the
same answers are given by a grammar, one rule for each shape of a rooted path, so that proofs
about roots go by cases on the shape and never through the tests of the classifier.

- `Rooted`: the grammar.
- `classify_eq_some_iff`: the classifier accepts exactly the grammar.
- `Rooted.length_le`: a root is at most one longer than its path.
-/

namespace Pathname

open Segments (IsPlain)

/-! ## Beginnings of a text -/

@[simp] theorem isSeparator_colon : isSeparator ':' = false := rfl

@[simp] theorem isSeparator_tilde : isSeparator '~' = false := rfl

/-- A text that does not begin with a separator. -/
def BeginsPlain (t : Text) : Prop := ∀ c, t.head? = some c → isSeparator c = false

theorem beginsPlain_nil : BeginsPlain [] := by
  intro c hc
  simp at hc

theorem beginsPlain_cons {c : Char} {rest : Text} :
    BeginsPlain (c :: rest) ↔ isSeparator c = false := by
  simp [BeginsPlain]

theorem not_isSeparator_of_isAlpha {c : Char} (h : c.isAlpha = true) : isSeparator c = false := by
  rw [Bool.eq_false_iff]
  intro hsep
  obtain ⟨s, rfl⟩ := exists_char_of_isSeparator hsep
  cases s <;> contradiction

private theorem ne_marker_of_isAlpha {c : Char} (h : c.isAlpha = true) : c ≠ ':' ∧ c ≠ '~' := by
  constructor
  · rintro rfl
    contradiction
  · rintro rfl
    contradiction

private theorem char_ne_marker (s : Separator) : s.char ≠ ':' ∧ s.char ≠ '~' := by
  cases s <;> decide

/-- The first separator of a text stands behind a text without separators. -/
theorem eq_append_of_findIdx? {t : Text} {i : Nat} (h : t.findIdx? isSeparator = some i) :
    ∃ (plain : Text) (s : Separator) (after : Text),
      t = plain ++ s.char :: after ∧ IsPlain plain ∧ plain.length = i := by
  induction t generalizing i with
  | nil => simp at h
  | cons c rest ih =>
    rw [List.findIdx?_cons] at h
    split at h
    · rename_i hc
      obtain ⟨s, rfl⟩ := exists_char_of_isSeparator hc
      exact ⟨[], s, rest, rfl, fun _ hd => absurd hd List.not_mem_nil, Option.some.inj h⟩
    · rename_i hc
      obtain ⟨j, hj, rfl⟩ := Option.map_eq_some_iff.mp h
      obtain ⟨plain, s, after, rfl, hplain, rfl⟩ := ih hj
      refine ⟨c :: plain, s, after, rfl, ?_, rfl⟩
      intro d hd
      rcases List.mem_cons.mp hd with rfl | hd
      · exact Bool.eq_false_iff.mpr hc
      · exact hplain d hd

theorem findIdx?_append_separator {plain : Text} (hplain : IsPlain plain) (s : Separator)
    (after : Text) : (plain ++ s.char :: after).findIdx? isSeparator = some plain.length := by
  have hnone : plain.findIdx? isSeparator = none :=
    List.findIdx?_eq_none_iff.mpr fun c hc => hplain c hc
  simp [List.findIdx?_append, hnone, List.findIdx?_cons]

theorem isPlain_of_findIdx? {t : Text} (h : t.findIdx? isSeparator = none) : IsPlain t :=
  fun c hc => List.findIdx?_eq_none_iff.mp h c hc

/-! ## The grammar -/

/-- The root behind a home marker and the name of a user; no name is that of the current user. -/
def Root.homeOf (user : Text) : Root :=
  ⟨if user = [] then .homeCurrentUser else .homeNamedUser, user.length + 2⟩

/-- A letter and a colon and nothing else, in the style in which they name no drive. -/
def IsLetterColon (style : Style) (t : Text) : Prop :=
  style = .unix ∧ ∃ letter : Char, letter.isAlpha = true ∧ t = [letter, ':']

theorem hasBareDrives_eq_false_iff {style : Style} :
    style.hasBareDrives = false ↔ style = .unix := by
  cases style <;> simp [Style.hasBareDrives]

/-- The shapes of a rooted path, each with its root. -/
inductive Rooted (style : Style) : Text → Root → Prop where
  /-- The empty path is relative. -/
  | empty : Rooted style [] .relative
  /-- A path is relative if its first character means nothing, alone or before a colon. -/
  | relative {c : Char} {rest : Text} : c ≠ ':' → c ≠ '~' → isSeparator c = false →
      rest.head? ≠ some ':' → Rooted style (c :: rest) .relative
  /-- Where no drive stands alone, a letter and a colon are a name like any other. -/
  | letterColon {letter : Char} : letter.isAlpha = true → style.hasBareDrives = false →
      Rooted style [letter, ':'] .relative
  /-- One separator; a backslash may not stand before a colon. -/
  | currentDrive {s : Separator} {rest : Text} : BeginsPlain rest →
      (rest.head? = some ':' → s = .slash) → Rooted style (s.char :: rest) .currentDrive
  /-- A drive and a path that starts from its current directory. -/
  | driveRelative {letter : Char} {rest : Text} : letter.isAlpha = true → BeginsPlain rest →
      (rest = [] → style.hasBareDrives = true) →
        Rooted style (letter :: ':' :: rest) ⟨.driveRelative, 2⟩
  /-- A drive and its root directory. -/
  | driveAbsolute {letter : Char} {s : Separator} {rest : Text} : letter.isAlpha = true →
      Rooted style (letter :: ':' :: s.char :: rest) ⟨.driveAbsolute, 3⟩
  /-- Two separators, a host and a separator. -/
  | server {s₁ s₂ s₃ : Separator} {host rest : Text} : host ≠ [] → IsPlain host →
      Host.isValid host = true →
        Rooted style (s₁.char :: s₂.char :: (host ++ s₃.char :: rest)) ⟨.server, host.length + 3⟩
  /-- A home marker, the name of a user and a separator. -/
  | home {user : Text} {s : Separator} {rest : Text} : IsPlain user →
      Rooted style ('~' :: (user ++ s.char :: rest)) (.homeOf user)
  /-- A home marker and the name of a user, and nothing behind them. -/
  | bareHome {user : Text} : IsPlain user → Rooted style ('~' :: user) (.homeOf user)

/-! ## The classifier finds the shape -/

private theorem rooted_home (style : Style) (rest : Text) :
    Rooted style ('~' :: rest) (Root.home rest) := by
  unfold Root.home
  -- A separator at once, a separator behind the name of a user, or none at all.
  split
  · rename_i hidx
    obtain ⟨user, s, after, rfl, hplain, hlength⟩ := eq_append_of_findIdx? hidx
    obtain rfl : user = [] := List.length_eq_zero_iff.mp hlength
    exact Rooted.home hplain
  · rename_i i hidx
    obtain ⟨user, s, after, rfl, hplain, hlength⟩ := eq_append_of_findIdx? hidx
    have hne : user ≠ [] := by
      rintro rfl
      simp at hlength
    have hroot : Root.homeOf user = ⟨.homeNamedUser, i + 3⟩ := by
      rw [Root.homeOf, if_neg hne, hlength]
    exact hroot ▸ Rooted.home hplain
  · rename_i hidx
    have hplain := isPlain_of_findIdx? hidx
    have hroot : Root.homeOf rest =
        if rest.isEmpty then ⟨.homeCurrentUser, 2⟩ else ⟨.homeNamedUser, rest.length + 2⟩ := by
      cases rest <;> rfl
    exact hroot ▸ Rooted.bareHome hplain

private theorem rooted_drive {style : Style} {letter : Char} {rest : Text} {root : Root}
    (h : Root.drive style letter rest = some root) : Rooted style (letter :: ':' :: rest) root := by
  unfold Root.drive at h
  split at h
  · rename_i hletter
    -- What a drive is depends on what is behind its colon.
    cases rest with
    | nil =>
      have hroot := Option.some.inj h
      cases hstyle : style.hasBareDrives with
      | true =>
        rw [hstyle, if_pos rfl] at hroot
        exact hroot ▸ Rooted.driveRelative hletter beginsPlain_nil (fun _ => hstyle)
      | false =>
        rw [hstyle, if_neg Bool.false_ne_true] at hroot
        exact hroot ▸ Rooted.letterColon hletter hstyle
    | cons c more =>
      have hroot := Option.some.inj h
      split at hroot
      · rename_i hc
        obtain ⟨s, rfl⟩ := exists_char_of_isSeparator hc
        exact hroot ▸ Rooted.driveAbsolute hletter
      · rename_i hc
        have hplain : BeginsPlain (c :: more) := beginsPlain_cons.mpr (Bool.eq_false_iff.mpr hc)
        exact hroot ▸ Rooted.driveRelative hletter hplain (fun hnil => by simp at hnil)
  · -- Of all that is no letter only a slash may stand before a colon.
    split at h
    · rename_i hslash
      subst hslash
      have hplain : BeginsPlain (':' :: rest) := beginsPlain_cons.mpr (by decide)
      exact Option.some.inj h ▸ @Rooted.currentDrive style .slash _ hplain (fun _ => rfl)
    · simp at h

private theorem rooted_server {style : Style} {s₁ s₂ : Separator} {rest : Text} {root : Root}
    (h : Root.server rest = some root) : Rooted style (s₁.char :: s₂.char :: rest) root := by
  unfold Root.server at h
  split at h
  · rename_i i hidx
    obtain ⟨host, s₃, after, rfl, hplain, hlength⟩ := eq_append_of_findIdx? hidx
    split at h
    · rename_i hvalid
      have htake : (host ++ s₃.char :: after).take (i + 1) = host := by
        rw [← Nat.succ_eq_add_one, ← hlength, List.take_left]
      have hne : host ≠ [] := by
        rintro rfl
        simp at hlength
      have hroot : root = ⟨.server, host.length + 3⟩ := by
        rw [hlength]
        exact (Option.some.inj h).symm
      exact hroot ▸ Rooted.server hne hplain (htake ▸ hvalid)
    · simp at h
  · simp at h

theorem rooted_of_classify {style : Style} {t : Text} {root : Root}
    (h : Root.classify style t = some root) : Rooted style t root := by
  cases t with
  | nil => exact Option.some.inj h ▸ Rooted.empty
  | cons c rest =>
    -- The tests of the classifier, in its order: colon, home marker, drive, separators.
    simp only [Root.classify] at h
    by_cases hcolon : c = ':'
    · rw [if_pos hcolon] at h
      exact absurd h (by simp)
    rw [if_neg hcolon] at h
    by_cases hhome : c = '~'
    · rw [if_pos hhome] at h
      subst hhome
      exact Option.some.inj h ▸ rooted_home style rest
    rw [if_neg hhome] at h
    by_cases hdrive : rest.head? = some ':'
    · rw [if_pos hdrive] at h
      obtain ⟨more, rfl⟩ := List.head?_eq_some_iff.mp hdrive
      exact rooted_drive h
    rw [if_neg hdrive] at h
    cases hsep : isSeparator c with
    | false =>
      rw [hsep] at h
      exact Option.some.inj h ▸ Rooted.relative hcolon hhome hsep hdrive
    | true =>
      rw [hsep] at h
      obtain ⟨s, rfl⟩ := exists_char_of_isSeparator hsep
      -- One separator is the root of the current drive, two begin the name of a server.
      cases rest with
      | nil =>
        exact Option.some.inj h ▸ Rooted.currentDrive beginsPlain_nil (fun hc => by simp at hc)
      | cons d more =>
        cases hd : isSeparator d with
        | false =>
          have hroot : some Root.currentDrive = some root := by simpa [hd] using h
          exact Option.some.inj hroot ▸
            Rooted.currentDrive (beginsPlain_cons.mpr hd) (fun hc => absurd hc hdrive)
        | true =>
          obtain ⟨s₂, rfl⟩ := exists_char_of_isSeparator hd
          exact rooted_server (by simpa using h)

theorem classify_of_rooted {style : Style} {t : Text} {root : Root} (h : Rooted style t root) :
    Root.classify style t = some root := by
  -- The premises of each rule make the tests before its own fail.
  cases h with
  | empty => rfl
  | relative hcolon hhome hsep hdrive => simp [Root.classify, hcolon, hhome, hsep, hdrive]
  | @letterColon letter hletter hstyle =>
    obtain ⟨hcolon, hhome⟩ := ne_marker_of_isAlpha hletter
    simp [Root.classify, Root.drive, hcolon, hhome, hletter, hstyle]
  | @currentDrive s rest hplain hslash =>
    obtain ⟨hcolon, hhome⟩ := char_ne_marker s
    cases rest with
    | nil => simp [Root.classify, hcolon, hhome]
    | cons d more =>
      have hd : isSeparator d = false := beginsPlain_cons.mp hplain
      by_cases hdrive : d = ':'
      · subst hdrive
        obtain rfl : s = .slash := hslash rfl
        rfl
      · simp [Root.classify, hcolon, hhome, hd, hdrive]
  | @driveRelative letter rest hletter hplain hbare =>
    obtain ⟨hcolon, hhome⟩ := ne_marker_of_isAlpha hletter
    cases rest with
    | nil => simp [Root.classify, Root.drive, hcolon, hhome, hletter, hbare rfl]
    | cons d more =>
      simp [Root.classify, Root.drive, hcolon, hhome, hletter, beginsPlain_cons.mp hplain]
  | @driveAbsolute letter s rest hletter =>
    obtain ⟨hcolon, hhome⟩ := ne_marker_of_isAlpha hletter
    simp [Root.classify, Root.drive, hcolon, hhome, hletter]
  | @server s₁ s₂ s₃ host rest hne hplain hvalid =>
    obtain ⟨hcolon, hhome⟩ := char_ne_marker s₁
    obtain ⟨hdrive, -⟩ := char_ne_marker s₂
    have hserver : Root.server (host ++ s₃.char :: rest) = some ⟨.server, host.length + 3⟩ := by
      unfold Root.server
      rw [findIdx?_append_separator hplain]
      obtain ⟨n, hn⟩ : ∃ n, host.length = n + 1 :=
        Nat.exists_eq_succ_of_ne_zero (mt List.length_eq_zero_iff.mp hne)
      have htake : (host ++ s₃.char :: rest).take (n + 1) = host := by
        rw [← hn, List.take_left]
      simp [hn, htake, hvalid]
    simp [Root.classify, hcolon, hhome, hdrive, hserver]
  | @home user s rest hplain =>
    have hroot : Root.home (user ++ s.char :: rest) = .homeOf user := by
      unfold Root.home
      rw [findIdx?_append_separator hplain]
      cases user <;> rfl
    simp [Root.classify, hroot]
  | @bareHome user hplain =>
    have hroot : Root.home user = .homeOf user := by
      unfold Root.home
      rw [List.findIdx?_eq_none_iff.mpr fun c hc => hplain c hc]
      cases user <;> rfl
    simp [Root.classify, hroot]

/-- **The classifier accepts exactly the grammar.** -/
theorem classify_eq_some_iff {style : Style} {t : Text} {root : Root} :
    Root.classify style t = some root ↔ Rooted style t root :=
  ⟨rooted_of_classify, classify_of_rooted⟩

/-! ## What a root says of its path -/

/-- The length of all roots of a kind, unless they hold the name of a host or a user. -/
def RootKind.length? : RootKind → Option Nat
  | relative => some 0
  | currentDrive => some 1
  | driveRelative | homeCurrentUser => some 2
  | driveAbsolute => some 3
  | server | homeNamedUser => none

theorem RootKind.exists_length {kind : RootKind} (hserver : kind ≠ .server)
    (hnamed : kind ≠ .homeNamedUser) : ∃ n, kind.length? = some n := by
  cases kind with
  | server => exact absurd rfl hserver
  | homeNamedUser => exact absurd rfl hnamed
  | relative | currentDrive | driveRelative | driveAbsolute | homeCurrentUser => exact ⟨_, rfl⟩

namespace Rooted

variable {style : Style} {t : Text} {root : Root}

theorem unique {root' : Root} (h : Rooted style t root) (h' : Rooted style t root') :
    root' = root :=
  Option.some.inj ((classify_of_rooted h').symm.trans (classify_of_rooted h))

theorem length_le (h : Rooted style t root) : root.length ≤ t.length + 1 := by
  cases h <;> simp [Root.relative, Root.currentDrive, Root.homeOf]

theorem exceeds_iff (h : Rooted style t root) :
    root.exceeds t = true ↔ root.length = t.length + 1 := by
  have hle := h.length_le
  rw [Root.exceeds, decide_eq_true_iff]
  omega

theorem length_eq (h : Rooted style t root) {n : Nat} (hn : root.kind.length? = some n) :
    root.length = n := by
  have home_length : ∀ user : Text, (Root.homeOf user).kind.length? = some n →
      (Root.homeOf user).length = n := by
    intro user hn
    cases user with
    | nil => exact Option.some.inj hn
    | cons c more => exact absurd hn (by simp [Root.homeOf, RootKind.length?])
  cases h with
  | empty | relative | letterColon | currentDrive => exact Option.some.inj hn
  | driveRelative | driveAbsolute => exact Option.some.inj hn
  | server => exact absurd hn (by simp [RootKind.length?])
  | home | bareHome => exact home_length _ hn

/-- No other shape than the two behind a home marker has the kind of a home. -/
private theorem homeOf_kind_ne (user : Text) {kind : RootKind} (hcurrent : kind ≠ .homeCurrentUser)
    (hnamed : kind ≠ .homeNamedUser) : (Root.homeOf user).kind ≠ kind := by
  unfold Root.homeOf
  split
  · exact Ne.symm hcurrent
  · exact Ne.symm hnamed

theorem eq_relative (h : Rooted style t root) (hkind : root.kind = .relative) :
    root = .relative := by
  cases h with
  | empty | relative | letterColon => rfl
  | currentDrive | driveRelative | driveAbsolute | server => contradiction
  | home | bareHome => exact absurd hkind (homeOf_kind_ne _ (by simp) (by simp))

theorem eq_cons_of_currentDrive (h : Rooted style t root) (hkind : root.kind = .currentDrive) :
    root = .currentDrive ∧ ∃ (s : Separator) (rest : Text), t = s.char :: rest ∧
      BeginsPlain rest ∧ (rest.head? = some ':' → s = .slash) := by
  cases h with
  | @currentDrive s rest hplain hslash => exact ⟨rfl, s, rest, rfl, hplain, hslash⟩
  | empty | relative | letterColon => contradiction
  | driveRelative | driveAbsolute | server => contradiction
  | home | bareHome => exact absurd hkind (homeOf_kind_ne _ (by simp) (by simp))

theorem eq_cons_of_driveRelative (h : Rooted style t root) (hkind : root.kind = .driveRelative) :
    root = ⟨.driveRelative, 2⟩ ∧ ∃ (letter : Char) (rest : Text), t = letter :: ':' :: rest ∧
      letter.isAlpha = true ∧ BeginsPlain rest ∧ (rest = [] → style.hasBareDrives = true) := by
  cases h with
  | @driveRelative letter rest hletter hplain hbare =>
    exact ⟨rfl, letter, rest, rfl, hletter, hplain, hbare⟩
  | empty | relative | letterColon => contradiction
  | currentDrive | driveAbsolute | server => contradiction
  | home | bareHome => exact absurd hkind (homeOf_kind_ne _ (by simp) (by simp))

theorem eq_cons_of_server (h : Rooted style t root) (hkind : root.kind = .server) :
    ∃ (s₁ s₂ s₃ : Separator) (host rest : Text),
      t = s₁.char :: s₂.char :: (host ++ s₃.char :: rest) ∧ host ≠ [] ∧ IsPlain host ∧
      Host.isValid host = true ∧ root = ⟨.server, host.length + 3⟩ := by
  cases h with
  | @server s₁ s₂ s₃ host rest hne hplain hvalid =>
    exact ⟨s₁, s₂, s₃, host, rest, rfl, hne, hplain, hvalid, rfl⟩
  | empty | relative | letterColon => contradiction
  | currentDrive | driveRelative | driveAbsolute => contradiction
  | home | bareHome => exact absurd hkind (homeOf_kind_ne _ (by simp) (by simp))

/-- Two roots of one kind are equal, unless they hold a name. -/
theorem eq_of_kind_eq {style' : Style} {t' : Text} {root' : Root} (h : Rooted style t root)
    (h' : Rooted style' t' root') (hkind : root'.kind = root.kind)
    (hserver : root.kind ≠ .server) (hnamed : root.kind ≠ .homeNamedUser) : root' = root := by
  obtain ⟨n, hn⟩ := RootKind.exists_length hserver hnamed
  have hlength : root'.length = root.length := by
    rw [h.length_eq hn, h'.length_eq (hkind ▸ hn)]
  cases root
  cases root'
  simp_all

/-- A root that is all in its path ends in a separator, unless it is no root or a drive without
its root directory. -/
theorem take_length_eq (h : Rooted style t root) (hrelative : root.kind ≠ .relative)
    (hdrive : root.kind ≠ .driveRelative) (hle : root.length ≤ t.length) :
    ∃ (before : Text) (s : Separator), t.take root.length = before ++ [s.char] := by
  cases h with
  | empty | relative | letterColon => exact absurd rfl hrelative
  | driveRelative => exact absurd rfl hdrive
  | @currentDrive s rest => exact ⟨[], s, rfl⟩
  | @driveAbsolute letter s rest => exact ⟨[letter, ':'], s, rfl⟩
  | @server s₁ s₂ s₃ host rest =>
    refine ⟨s₁.char :: s₂.char :: host, s₃, ?_⟩
    show s₁.char :: s₂.char :: (host ++ s₃.char :: rest).take (host.length + 1) = _
    rw [List.take_length_add_append 1]
    rfl
  | @home user s rest =>
    refine ⟨'~' :: user, s, ?_⟩
    show '~' :: (user ++ s.char :: rest).take (user.length + 1) = _
    rw [List.take_length_add_append 1]
    rfl
  | @bareHome user =>
    simp only [Root.homeOf, List.length_cons] at hle
    omega

/-- The same root, and what stands before its separator and behind it. -/
theorem exists_separator_before (h : Rooted style t root) (hrelative : root.kind ≠ .relative)
    (hdrive : root.kind ≠ .driveRelative) (hle : root.length ≤ t.length) :
    ∃ (before : Text) (s : Separator) (after : Text),
      t = before ++ s.char :: after ∧ root.length = before.length + 1 := by
  obtain ⟨before, s, htake⟩ := h.take_length_eq hrelative hdrive hle
  refine ⟨before, s, t.drop root.length, ?_, ?_⟩
  · have hsplit := List.take_append_drop root.length t
    rw [htake, List.append_assoc] at hsplit
    exact hsplit.symm
  · have hlength := congrArg List.length htake
    simpa [Nat.min_eq_left hle] using hlength

/-- A path that is all root ends in a separator too. -/
theorem getLast?_of_length_eq (h : Rooted style t root) (hrelative : root.kind ≠ .relative)
    (hdrive : root.kind ≠ .driveRelative) (hall : root.length = t.length) :
    ∃ s : Separator, t.getLast? = some s.char := by
  obtain ⟨before, s, htake⟩ := h.take_length_eq hrelative hdrive (Nat.le_of_eq hall)
  rw [hall, List.take_length] at htake
  exact ⟨s, by rw [htake, List.getLast?_concat]⟩

/-- A root that is not all in its path is a home that stands alone. -/
theorem eq_home_of_length_lt (h : Rooted style t root) (hlt : t.length < root.length) :
    ∃ user, IsPlain user ∧ t = '~' :: user := by
  cases h with
  | @bareHome user hplain => exact ⟨user, hplain, rfl⟩
  | empty | relative | letterColon | currentDrive =>
    simp [Root.relative, Root.currentDrive] at hlt
  | driveRelative | driveAbsolute | server | home =>
    simp only [Root.homeOf, List.length_cons, List.length_append] at hlt
    omega

/-- A text that begins with no separator is relative unless its first two characters tell
otherwise. -/
theorem relative_iff (hplain : BeginsPlain t) :
    Rooted style t .relative ↔ t.head? ≠ some '~' ∧ t.head? ≠ some ':' ∧
      (t[1]? = some ':' → IsLetterColon style t) := by
  constructor
  · intro h
    generalize hroot : Root.relative = root at h
    cases h with
    | empty => simp
    | @relative c rest hcolon hhome hsep hdrive =>
      refine ⟨by simpa using hhome, by simpa using hcolon, fun hsecond => absurd ?_ hdrive⟩
      rwa [List.head?_eq_getElem?]
    | @letterColon letter hletter hstyle =>
      obtain ⟨hcolon, hhome⟩ := ne_marker_of_isAlpha hletter
      have hunix : style = .unix := hasBareDrives_eq_false_iff.mp hstyle
      exact ⟨by simpa using hhome, by simpa using hcolon, fun _ => ⟨hunix, letter, hletter, rfl⟩⟩
    | currentDrive | driveRelative | driveAbsolute | server =>
      exact absurd hroot (by simp [Root.relative, Root.currentDrive])
    | home | bareHome =>
      have hkind := congrArg Root.kind hroot.symm
      exact absurd hkind (homeOf_kind_ne _ (by simp [Root.relative]) (by simp [Root.relative]))
  · rintro ⟨hhome, hcolon, hsecond⟩
    cases t with
    | nil => exact Rooted.empty
    | cons c rest =>
      have hsep : isSeparator c = false := beginsPlain_cons.mp hplain
      by_cases hdrive : rest.head? = some ':'
      · obtain ⟨more, rfl⟩ := List.head?_eq_some_iff.mp hdrive
        obtain ⟨rfl, letter, hletter, htext⟩ := hsecond rfl
        rw [htext]
        exact Rooted.letterColon hletter rfl
      · exact Rooted.relative (by simpa using hcolon) (by simpa using hhome) hsep hdrive

theorem of_length_eq_zero (h : Rooted style t root) (hlength : root.length = 0) :
    root = .relative ∧ BeginsPlain t ∧ t.head? ≠ some ':' := by
  cases h with
  | empty => exact ⟨rfl, beginsPlain_nil, by simp⟩
  | relative hcolon _ hsep _ => exact ⟨rfl, beginsPlain_cons.mpr hsep, by simpa using hcolon⟩
  | letterColon hletter _ =>
    have hcolon := (ne_marker_of_isAlpha hletter).1
    exact ⟨rfl, beginsPlain_cons.mpr (not_isSeparator_of_isAlpha hletter), by simpa using hcolon⟩
  | currentDrive => exact absurd hlength (by simp [Root.currentDrive])
  | driveRelative | driveAbsolute | server => exact absurd hlength (by simp)
  | home | bareHome => exact absurd hlength (by simp [Root.homeOf])

theorem of_lengthOf_eq_zero (h : Root.lengthOf style t = .ok 0) :
    Rooted style t .relative ∧ BeginsPlain t ∧ t.head? ≠ some ':' := by
  cases hclassify : Root.classify style t with
  | none => simp [Root.lengthOf, Root.ofText, hclassify, Except.map] at h
  | some root =>
    have hrooted := rooted_of_classify hclassify
    have hzero : root.length = 0 := by
      simpa [Root.lengthOf, Root.ofText, hclassify, Except.map] using h
    obtain ⟨rfl, hplain, hcolon⟩ := hrooted.of_length_eq_zero hzero
    exact ⟨hrooted, hplain, hcolon⟩

/-- **A path that is continued keeps its root**, if the root is all in it. The path may not be
empty, nor a letter and a colon that name no drive; the continuation may not begin with a colon,
and not with a separator either where the path is all root. -/
theorem append (h : Rooted style t root) {v : Text} (hle : root.length ≤ t.length)
    (hne : t ≠ []) (hname : ¬ IsLetterColon style t) (hcolon : v.head? ≠ some ':')
    (hplain : root.length = t.length → BeginsPlain v) : Rooted style (t ++ v) root := by
  -- Only the first characters decide, and they stay first.
  cases h with
  | empty => exact absurd rfl hne
  | @relative c rest hfirst hhome hsep hdrive =>
    refine Rooted.relative hfirst hhome hsep ?_
    cases rest with
    | nil => exact hcolon
    | cons d more => exact hdrive
  | @letterColon letter hletter hstyle =>
    have hunix : style = .unix := hasBareDrives_eq_false_iff.mp hstyle
    exact absurd ⟨hunix, letter, hletter, rfl⟩ hname
  | @currentDrive s rest hrest hslash =>
    cases rest with
    | nil => exact Rooted.currentDrive (hplain rfl) (fun h => absurd h hcolon)
    | cons d more =>
      have hmore : BeginsPlain (d :: more ++ v) := beginsPlain_cons.mpr (beginsPlain_cons.mp hrest)
      exact Rooted.currentDrive hmore hslash
  | @driveRelative letter rest hletter hrest hbare =>
    cases rest with
    | nil => exact Rooted.driveRelative hletter (hplain rfl) (fun _ => hbare rfl)
    | cons d more =>
      have hmore : BeginsPlain (d :: more ++ v) := beginsPlain_cons.mpr (beginsPlain_cons.mp hrest)
      exact Rooted.driveRelative hletter hmore (fun hnil => by simp at hnil)
  | driveAbsolute hletter => exact Rooted.driveAbsolute hletter
  | server hhost hplainHost hvalid =>
    rw [List.cons_append, List.cons_append, List.append_assoc]
    exact Rooted.server hhost hplainHost hvalid
  | home huser =>
    rw [List.cons_append, List.append_assoc]
    exact Rooted.home huser
  | bareHome =>
    -- The root of a bare home is longer than its path.
    simp only [Root.homeOf, List.length_cons] at hle
    omega

end Rooted

end Pathname
