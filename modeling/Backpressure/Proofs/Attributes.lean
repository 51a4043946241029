import Mathlib.Data.List.Basic
import Backpressure.Settings.Database
import Backpressure.Proofs.Decoding

/-!
# The attributes in the address of a database

* `Percent.encodeForm_injective` : a text can be read back from its form in a field;
* `IsMark` : the texts that stand between two attributes, `mark_cases` : of two such marks in one text one is the other
  one, or all of it lies before or after the other one;
* `DatabaseSettings.body` : the attributes with the marks between them, `DatabaseSettings.url_eq_iff` : the address
  tells these and nothing else;
* `DatabaseSettings.Unmarked` : no attribute holds the mark before it or after it;
* `DatabaseSettings.urls_tell_unmarked_settings` : just the settings of this kind can be told from all others by their
  address.
-/

namespace Backpressure
open Text

namespace Text.Percent

theorem decode_encode (s : List Char) : decode (encode s) = s := by
  have hbytes := toBytes_encode s []
  rw [List.append_nil] at hbytes
  unfold decode
  rw [hbytes, show toBytes [] = [] from rfl, List.append_nil, Utf8.decode_encode]

/-- A plus sign of the written form of a field is a space, and no other character is written with one. -/
theorem flatMap_encodeForm (s : List Char) :
    ((encodeForm s).flatMap fun c => if c = '+' then encodeChar ' ' else [c]) = encode s := by
  unfold encodeForm encode
  induction s with
  | nil => rfl
  | cons c rest ih =>
    rw [List.flatMap_cons, List.flatMap_append, ih, List.flatMap_cons]
    congr 1
    split
    · next hspace =>
      rw [hspace]
      rfl
    · have hplus : ∀ d ∈ encodeChar c, d ≠ '+' := by
        rintro d hd rfl
        have hmem : '+' ∈ encode [c] := List.mem_flatMap.mpr ⟨c, List.mem_singleton_self c, hd⟩
        exact absurd (isPlain_of_mem_encode hmem) (by decide)
      calc ((encodeChar c).flatMap fun d => if d = '+' then encodeChar ' ' else [d])
          = (encodeChar c).flatMap fun d => [d] := List.flatMap_congr fun d hd => if_neg (hplus d hd)
        _ = encodeChar c := List.flatMap_singleton' _

theorem encodeForm_injective {s t : List Char} (h : encodeForm s = encodeForm t) : s = t := by
  rw [← decode_encode s, ← decode_encode t, ← flatMap_encodeForm, ← flatMap_encodeForm, h]

end Text.Percent

/-! ## Marks -/

/-- A text that begins with the only `first` in it and ends with the only equals sign. -/
def IsMark (first : Char) (m : List Char) : Prop :=
  first ≠ '=' ∧ ∃ inner, first ∉ inner ∧ '=' ∉ inner ∧ m = first :: (inner ++ ['='])

section

variable {first : Char} {m m' x x' y y' z : List Char}

theorem IsMark.ne_nil (h : IsMark first m) : m ≠ [] := by
  obtain ⟨-, inner, -, -, rfl⟩ := h
  exact List.cons_ne_nil _ _

/-- Of two texts that end in marks of one kind and are the same, the marks are the same. -/
theorem IsMark.append_inj (hm : IsMark first m) (hm' : IsMark first m') (h : x ++ m = x' ++ m') : x = x' ∧ m = m' := by
  -- One of the marks ends the other one, and there is no second `first` for it to begin with.
  have hends : ∀ {a b u : List Char}, IsMark first a → IsMark first b → a = u ++ b → u = [] := by
    rintro a b u ⟨hne, inner, hfirst, -, rfl⟩ ⟨-, inner', -, -, rfl⟩ heq
    cases u with
    | nil => rfl
    | cons c u =>
      have hmem : first ∈ inner ++ ['='] := by
        rw [(List.cons.inj heq).2]
        exact List.mem_append_right _ List.mem_cons_self
      rcases List.mem_append.mp hmem with hmem | hmem
      · exact absurd hmem hfirst
      · exact absurd (List.mem_singleton.mp hmem) hne
  rcases List.append_eq_append_iff.mp h with ⟨u, rfl, hu⟩ | ⟨u, rfl, hu⟩
  · obtain rfl := hends hm hm' hu
    exact ⟨(List.append_nil x).symm, hu⟩
  · obtain rfl := hends hm' hm hu
    exact ⟨List.append_nil x', hu.symm⟩

/-- Where a mark ends a text, and another one ends earlier in it, the other one lies before the first one. -/
theorem IsMark.append_eq_append (hm : IsMark first m) (hm' : IsMark first m') (hz : z ≠ [])
    (h : x' ++ m' = x ++ m ++ z) : ∃ u, x' = x ++ m ++ u ∧ z = u ++ m' := by
  rcases List.append_eq_append_iff.mp h with ⟨u, hx, hm'z⟩ | hinside
  · -- Of the mark at the end, `u` would be a part before its equals sign, but ends with one itself.
    have hequals : u = [] ∨ '=' ∈ u := by
      obtain ⟨-, inner, -, -, rfl⟩ := hm
      rcases List.eq_nil_or_concat u with rfl | ⟨front, c, rfl⟩
      · exact .inl rfl
      · have hlast := congrArg List.getLast? hx
        rw [← List.cons_append, ← List.append_assoc, List.concat_eq_append, ← List.append_assoc,
          List.getLast?_concat, List.getLast?_concat] at hlast
        rw [Option.some.inj hlast, List.concat_eq_append]
        exact .inr (List.mem_append_right _ (List.mem_singleton_self c))
    rcases hequals with rfl | hmem
    · exact ⟨[], by rw [List.append_nil, hx, List.append_nil], hm'z.symm⟩
    · exfalso
      obtain ⟨hne, inner, -, hinner, rfl⟩ := hm'
      obtain ⟨front, c, rfl⟩ := (List.eq_nil_or_concat z).resolve_left hz
      rw [List.concat_eq_append, ← List.cons_append, ← List.append_assoc] at hm'z
      have hfront := (List.append_inj' hm'z rfl).1
      have hcons : '=' ∈ first :: inner := hfront ▸ List.mem_append_left _ hmem
      rcases List.mem_cons.mp hcons with heq | hin
      · exact hne heq.symm
      · exact hinner hin
  · exact hinside

/-- Two marks of one kind in one text are at one place, or one lies before the other one. -/
theorem mark_cases (hm : IsMark first m) (hm' : IsMark first m') (h : x ++ m ++ y = x' ++ m' ++ y') :
    (x = x' ∧ m = m' ∧ y = y') ∨ (∃ z, x = x' ++ m' ++ z) ∨ ∃ z, y = z ++ m' ++ y' := by
  rcases List.append_eq_append_iff.mp h with ⟨z, hx, hy⟩ | ⟨z, hx, hy⟩
  · by_cases hz : z = []
    · subst hz
      rw [List.append_nil] at hx
      obtain ⟨rfl, rfl⟩ := hm.append_inj hm' hx.symm
      exact .inl ⟨rfl, rfl, hy⟩
    · obtain ⟨u, -, rfl⟩ := hm.append_eq_append hm' hz hx
      exact .inr (.inr ⟨u, hy⟩)
  · by_cases hz : z = []
    · subst hz
      rw [List.append_nil] at hx
      obtain ⟨rfl, rfl⟩ := hm.append_inj hm' hx
      exact .inl ⟨rfl, rfl, hy.symm⟩
    · obtain ⟨u, rfl, -⟩ := hm'.append_eq_append hm hz hx
      exact .inr (.inl ⟨u, rfl⟩)

/-- A text `x` that ends in `last` begins with a text `x'` that ends in `last'` only where they have `P` in common, and
then `last` begins with `last'`. -/
def Tells (P : Prop) (x x' last last' : List Char) : Prop := ∀ r, x = x' ++ r → P ∧ last = last' ++ r

/-- After a mark, a text tells its own end as well where neither side of the mark holds the other mark. -/
theorem Tells.append {P : Prop} {last last' : List Char} (hx : Tells P x x' last last') (y' : List Char)
    (hm : IsMark first m) (hm' : IsMark first m') (hlast : ¬ m' <:+: last) (hy : ¬ m' <:+: y) :
    Tells (P ∧ last = last' ∧ m = m') (x ++ m ++ y) (x' ++ m' ++ y') y y' := by
  intro r h
  rw [List.append_assoc (x' ++ m')] at h
  rcases mark_cases hm hm' h with ⟨hsame, hmark, hrest⟩ | ⟨z, hbefore⟩ | ⟨z, hafter⟩
  · obtain ⟨hP, hend⟩ := hx [] (by rw [hsame, List.append_nil])
    exact ⟨⟨hP, by rw [hend, List.append_nil], hmark⟩, hrest⟩
  · obtain ⟨-, hend⟩ := hx (m' ++ z) (by rw [hbefore, List.append_assoc])
    exact absurd ⟨last', z, by rw [hend, List.append_assoc]⟩ hlast
  · exact absurd ⟨z, y' ++ r, hafter.symm⟩ hy

/-- Where a text before a mark or after it holds another one, the whole can be parted at that one as well. -/
theorem exists_other_parts (hm : IsMark first m) (hm' : IsMark first m') (h : m' <:+: x ∨ m' <:+: y) :
    ∃ x' y', (∀ before, before ++ x' ++ m' ++ y' = before ++ x ++ m ++ y) ∧ x' ≠ x := by
  have hpos := List.length_pos_iff.mpr hm.ne_nil
  have hpos' := List.length_pos_iff.mpr hm'.ne_nil
  rcases h with ⟨a, b, rfl⟩ | ⟨a, b, rfl⟩
  · refine ⟨a, b ++ m ++ y, fun before => by simp only [List.append_assoc], fun heq => ?_⟩
    have hlength := congrArg List.length heq
    simp only [List.length_append] at hlength
    omega
  · refine ⟨x ++ m ++ a, b, fun before => by simp only [List.append_assoc], fun heq => ?_⟩
    have hlength := congrArg List.length heq
    simp only [List.length_append] at hlength
    omega

end

namespace DatabaseSettings

/-! ## The attributes of a connection -/

/-- What stands between the driver and the server. -/
def serverMark : List Char := "\x7d;SERVER=".toList

/-- What stands between the server and the name of the database, for a port. -/
def databaseMark (portNumber : Int) : List Char := ',' :: (toString portNumber).toList ++ ";DATABASE=".toList

/-- What stands between the name of the database and the user. -/
def userMark : List Char := ";UID=".toList

/-- What stands between the user and the password. -/
def passwordMark : List Char := ";PWD=".toList

theorem isMark_serverMark : IsMark '\x7d' serverMark :=
  ⟨by decide, ";SERVER".toList, by decide, by decide, by decide⟩

theorem isMark_userMark : IsMark ';' userMark := ⟨by decide, "UID".toList, by decide, by decide, by decide⟩

theorem isMark_passwordMark : IsMark ';' passwordMark := ⟨by decide, "PWD".toList, by decide, by decide, by decide⟩

/-- The text of an integer consists of digits and a minus sign. -/
theorem minus_or_digit_of_mem {n : Int} {c : Char} (h : c ∈ (toString n).toList) : c = '-' ∨ c.isDigit = true := by
  have hdigits : ∀ k : Nat, c ∈ (Nat.repr k).toList → c.isDigit = true := by
    intro k hk
    rw [Nat.repr_eq_ofList_toDigits, String.toList_ofList] at hk
    exact Nat.isDigit_of_mem_toDigits (by decide) (by decide) hk
  cases n with
  | ofNat k => exact .inr (hdigits k h)
  | negSucc k =>
    have hmem : c ∈ ("-" ++ Nat.repr (k + 1)).toList := h
    rw [String.toList_append, List.mem_append] at hmem
    rcases hmem with hminus | hk
    · exact .inl (List.mem_singleton.mp hminus)
    · exact .inr (hdigits _ hk)

theorem toString_int_injective {n k : Int} (h : (toString n).toList = (toString k).toList) : n = k := by
  have hnat : ∀ {a b : Nat}, (Nat.repr a).toList = (Nat.repr b).toList → a = b := by
    intro a b hab
    simp only [Nat.repr_eq_ofList_toDigits, String.toList_ofList] at hab
    rw [← Nat.ofDigitChars_ten_toDigits (n := a), hab, Nat.ofDigitChars_ten_toDigits]
  have hsign : ∀ {a b : Nat}, (toString (Int.ofNat a)).toList ≠ (toString (Int.negSucc b)).toList := by
    intro a b hab
    have hdigits : ∀ c ∈ (Nat.repr a).toList, c.isDigit = true := by
      intro c hc
      rw [Nat.repr_eq_ofList_toDigits, String.toList_ofList] at hc
      exact Nat.isDigit_of_mem_toDigits (by decide) (by decide) hc
    have hminus : '-' ∈ (Nat.repr a).toList := by
      rw [show (Nat.repr a).toList = ("-" ++ Nat.repr (b + 1)).toList from hab, String.toList_append]
      exact List.mem_cons_self
    exact absurd (hdigits _ hminus) (by decide)
  cases n with
  | ofNat a =>
    cases k with
    | ofNat b => exact congrArg Int.ofNat (hnat h)
    | negSucc b => exact absurd h hsign
  | negSucc a =>
    cases k with
    | ofNat b => exact absurd h.symm hsign
    | negSucc b =>
      have hrest : ("-" ++ Nat.repr (a + 1)).toList = ("-" ++ Nat.repr (b + 1)).toList := h
      rw [String.toList_append, String.toList_append] at hrest
      have := hnat (List.append_cancel_left hrest)
      rw [Nat.succ.inj this]

theorem isMark_databaseMark (n : Int) : IsMark ',' (databaseMark n) := by
  have hnot : ∀ c : Char, c ≠ '-' → c.isDigit = false → c ∉ ";DATABASE".toList →
      c ∉ (toString n).toList ++ ";DATABASE".toList := by
    intro c hminus hdigit hrest hmem
    rcases List.mem_append.mp hmem with hmem | hmem
    · rcases minus_or_digit_of_mem hmem with heq | hisDigit
      · exact hminus heq
      · rw [hdigit] at hisDigit
        cases hisDigit
    · exact hrest hmem
  refine ⟨by decide, (toString n).toList ++ ";DATABASE".toList, hnot ',' (by decide) (by decide) (by decide),
    hnot '=' (by decide) (by decide) (by decide), ?_⟩
  rw [List.append_assoc]
  rfl

theorem databaseMark_injective {n k : Int} (h : databaseMark n = databaseMark k) : n = k := by
  have htail := List.append_cancel_right (List.cons.inj h).2
  exact toString_int_injective htail

/-- The attributes of a connection with the marks between them, as they stand in the address. -/
def body (s : DatabaseSettings) : List Char :=
  s.driver.toList ++ serverMark ++ s.host.toList ++ databaseMark s.portNumber ++ s.name.toList ++ userMark ++
    s.user.toList ++ passwordMark ++ s.password.toList

variable {s s' : DatabaseSettings}

theorem toList_attributes (s : DatabaseSettings) :
    s.attributes.toList = "DRIVER=\x7b".toList ++ s.body ++ ";TrustServerCertificate=yes;".toList := by
  unfold attributes body serverMark databaseMark userMark passwordMark
  simp only [String.toList_append, List.append_assoc, List.cons_append]
  rfl

/-- The address tells the attributes with their marks, and nothing else. -/
theorem url_eq_iff (h : s.address = none) (h' : s'.address = none) : s'.url = s.url ↔ s'.body = s.body := by
  have hurl : ∀ {t : DatabaseSettings}, t.address = none →
      t.url = "mssql+pyodbc:///?odbc_connect=" ++ String.ofList (Percent.encodeForm t.attributes.toList) := by
    intro t ht
    unfold url
    rw [ht]
  rw [hurl h, hurl h', toList_attributes, toList_attributes]
  constructor
  · intro heq
    have hlist := congrArg String.toList heq
    rw [String.toList_append, String.toList_append] at hlist
    have hform := Percent.encodeForm_injective (String.ofList_injective (String.toList_inj.mp
      (List.append_cancel_left hlist)))
    exact List.append_cancel_left (List.append_cancel_right hform)
  · intro heq
    rw [heq]

/-! ## Settings that can be told by their address -/

/-- Neither of two neighbours holds a mark. -/
def Avoid (m x y : List Char) : Prop := ¬ m <:+: x ∧ ¬ m <:+: y

/-- No attribute holds the mark before it or the mark after it; of the marks with a port, none with any port. -/
structure Unmarked (s : DatabaseSettings) : Prop where
  server : Avoid serverMark s.driver.toList s.host.toList
  database : ∀ n, Avoid (databaseMark n) s.host.toList s.name.toList
  user : Avoid userMark s.name.toList s.user.toList
  password : Avoid passwordMark s.user.toList s.password.toList

/-- Unmarked settings are told by their attributes with the marks between them. -/
theorem Unmarked.eq_of_body (hs : s.Unmarked) (h : s.address = none) (h' : s'.address = none)
    (hbody : s'.body = s.body) : s' = s := by
  have hdriver : Tells True s.driver.toList s'.driver.toList s.driver.toList s'.driver.toList :=
    fun r hr => ⟨trivial, hr⟩
  have hhost := hdriver.append s'.host.toList isMark_serverMark isMark_serverMark hs.server.1 hs.server.2
  have hname := hhost.append s'.name.toList (isMark_databaseMark s.portNumber) (isMark_databaseMark s'.portNumber)
    (hs.database s'.portNumber).1 (hs.database s'.portNumber).2
  have huser := hname.append s'.user.toList isMark_userMark isMark_userMark hs.user.1 hs.user.2
  have hpassword := huser.append s'.password.toList isMark_passwordMark isMark_passwordMark hs.password.1 hs.password.2
  obtain ⟨⟨⟨⟨⟨-, hdriver, -⟩, hhost, hport⟩, hname, -⟩, huser, -⟩, hpassword⟩ :=
    hpassword [] (by rw [List.append_nil]; exact hbody.symm)
  rw [List.append_nil] at hpassword
  obtain ⟨host, portNumber, user, password, name, driver, address⟩ := s
  obtain ⟨host', portNumber', user', password', name', driver', address'⟩ := s'
  rw [DatabaseSettings.mk.injEq]
  exact ⟨(String.toList_inj.mp hhost).symm, (databaseMark_injective hport).symm, (String.toList_inj.mp huser).symm,
    (String.toList_inj.mp hpassword).symm, (String.toList_inj.mp hname).symm, (String.toList_inj.mp hdriver).symm,
    h'.trans h.symm⟩

/-- Where an attribute holds a mark beside it, the attributes can be parted there as well, into those of other
settings. -/
theorem exists_other_settings (hs : ¬ s.Unmarked) (h : s.address = none) :
    ∃ s', s'.address = none ∧ s'.body = s.body ∧ s' ≠ s := by
  have hheld : ∀ {m x y : List Char}, ¬ Avoid m x y → m <:+: x ∨ m <:+: y := by
    intro m x y hnot
    by_contra hneither
    exact hnot ⟨fun hx => hneither (.inl hx), fun hy => hneither (.inr hy)⟩
  have hne : ∀ {t u : DatabaseSettings} (field : DatabaseSettings → String), (field t).toList ≠ (field u).toList →
      t ≠ u := by
    rintro t u field hfield rfl
    exact hfield rfl
  by_cases hserver : Avoid serverMark s.driver.toList s.host.toList
  case neg =>
    obtain ⟨x, y, hparts, hx⟩ := exists_other_parts isMark_serverMark isMark_serverMark (hheld hserver)
    refine ⟨{ s with driver := String.ofList x, host := String.ofList y }, h, ?_, hne driver ?_⟩
    · have hparts := hparts []
      rw [List.nil_append, List.nil_append] at hparts
      unfold body
      simp only [String.toList_ofList, hparts]
    · rwa [String.toList_ofList]
  by_cases hdatabase : ∀ n, Avoid (databaseMark n) s.host.toList s.name.toList
  case neg =>
    obtain ⟨n, hn⟩ := not_forall.mp hdatabase
    obtain ⟨x, y, hparts, hx⟩ := exists_other_parts (isMark_databaseMark s.portNumber) (isMark_databaseMark n)
      (hheld hn)
    refine ⟨{ s with host := String.ofList x, portNumber := n, name := String.ofList y }, h, ?_, hne host ?_⟩
    · unfold body
      simp only [String.toList_ofList, hparts]
    · rwa [String.toList_ofList]
  by_cases huser : Avoid userMark s.name.toList s.user.toList
  case neg =>
    obtain ⟨x, y, hparts, hx⟩ := exists_other_parts isMark_userMark isMark_userMark (hheld huser)
    refine ⟨{ s with name := String.ofList x, user := String.ofList y }, h, ?_, hne name ?_⟩
    · unfold body
      simp only [String.toList_ofList, hparts]
    · rwa [String.toList_ofList]
  · have hpassword : ¬ Avoid passwordMark s.user.toList s.password.toList := fun hpassword =>
      hs ⟨hserver, hdatabase, huser, hpassword⟩
    obtain ⟨x, y, hparts, hx⟩ := exists_other_parts isMark_passwordMark isMark_passwordMark (hheld hpassword)
    refine ⟨{ s with user := String.ofList x, password := String.ofList y }, h, ?_, hne user ?_⟩
    · unfold body
      simp only [String.toList_ofList, hparts]
    · rwa [String.toList_ofList]

/-- Settings can be told from all others by their address just where no attribute holds the mark before it or after it.
A password that holds the mark of passwords is one of those: its beginning may as well be the end of the user. -/
theorem urls_tell_unmarked_settings (h : s.address = none) :
    ((∀ s', s'.address = none → s'.url = s.url → s' = s) ↔ s.Unmarked) ∧
      ∀ a b, { s with password := a ++ ";PWD=" ++ b }.url =
        { s with user := s.user ++ ";PWD=" ++ a, password := b }.url := by
  have hurl : ∀ t u : DatabaseSettings, t.address = none → u.address = none → t.body = u.body → t.url = u.url :=
    fun t u ht hu hbody => (url_eq_iff hu ht).mpr hbody
  refine ⟨⟨fun htold => ?_, fun hs s' h' heq => hs.eq_of_body h h' ((url_eq_iff h h').mp heq)⟩, fun a b => ?_⟩
  · by_contra hmarked
    obtain ⟨s', h', hbody, hne⟩ := exists_other_settings hmarked h
    exact hne (htold s' h' (hurl s' s h' h hbody))
  · refine hurl _ _ h h ?_
    unfold body passwordMark
    simp only [String.toList_append, List.append_assoc]

/-- A part of a password is taken for the end of the user's name. -/
theorem url_of_password_with_mark :
    let s : DatabaseSettings := ⟨"localhost", 1433, "sa", "a;PWD=b", "flow", "ODBC Driver 18 for SQL Server", none⟩
    let s' : DatabaseSettings := { s with user := "sa;PWD=a", password := "b" }
    s.address = none ∧ s.url = s'.url ∧ s ≠ s' ∧ ¬ s.Unmarked := by
  intro s s'
  have h : s.address = none := rfl
  have hurl : s.url = s'.url := (urls_tell_unmarked_settings h).2 "a" "b"
  have hne : s ≠ s' := fun heq => absurd (congrArg DatabaseSettings.password heq) (by decide)
  exact ⟨h, hurl, hne, fun hs => hne ((urls_tell_unmarked_settings h).1.mpr hs s' rfl hurl.symm).symm⟩

end DatabaseSettings

end Backpressure
