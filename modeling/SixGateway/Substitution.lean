import SixGateway.Library.Chain
import SixGateway.Rendering

namespace SixGateway.Substitution

open Library.Template Models HostedPage Rendering

/-- The characters that `html.escape` replaces. -/
def special : List Char := ['&', '<', '>', '\x22', '\x27']

/-- The characters that could open or close a tag or an attribute. -/
def markup : List Char := ['<', '>', '\x22', '\x27']

def Plain (s : List Char) : Prop := ∀ c ∈ s, c ∉ special

instance (s : List Char) : Decidable (Plain s) := List.decidableBAll (· ∉ special) s

def entities : List (List Char) :=
  ["&amp;".toList, "&lt;".toList, "&gt;".toList, "&quot;".toList, "&#x27;".toList]

section escape

variable {c d : Char} {s t : List Char}

theorem escapeLetter_cases (c : Char) :
    (c ∈ special ∧ escapeLetter c ∈ entities) ∨ (c ∉ special ∧ escapeLetter c = [c]) := by
  unfold escapeLetter
  split_ifs with h₁ h₂ h₃ h₄ h₅
  · exact .inl ⟨by simp [h₁, special], by simp only [entities, List.mem_cons, true_or]⟩
  · exact .inl ⟨by simp [h₂, special], by simp only [entities, List.mem_cons, true_or, or_true]⟩
  · exact .inl ⟨by simp [h₃, special], by simp only [entities, List.mem_cons, true_or, or_true]⟩
  · exact .inl ⟨by simp [h₄, special], by simp only [entities, List.mem_cons, true_or, or_true]⟩
  · exact .inl ⟨by simp [h₅, special], by simp only [entities, List.mem_cons, true_or, or_true]⟩
  · exact .inr ⟨by simp [special, h₁, h₂, h₃, h₄, h₅], rfl⟩

theorem beq_of_special (hd : d ∈ special) (hc : c ∉ special) : (d == c) = false :=
  beq_false_of_ne (fun h => hc (h ▸ hd))

theorem not_mem_escape (hc : c ∈ markup) : c ∉ s.flatMap escapeLetter := by
  intro h
  obtain ⟨d, -, hd⟩ := List.mem_flatMap.mp h
  obtain ⟨-, hesc⟩ | ⟨hplain, hesc⟩ := escapeLetter_cases d
  · have hall : ∀ e ∈ entities, e.all (· ∉ markup) = true := by decide
    exact of_decide_eq_true (List.all_eq_true.mp (hall _ hesc) c hd) hc
  · rw [hesc, List.mem_singleton] at hd
    subst hd
    exact hplain (List.mem_cons_of_mem _ hc)

theorem count_semicolon_escape (s : List Char) : (s.flatMap escapeLetter).count ';' =
    s.count ';' + s.countP (fun c => decide (c ∈ special)) := by
  induction s with
  | nil => rfl
  | cons d s ih =>
    rw [List.flatMap_cons, List.count_append, ih, List.count_cons, List.countP_cons]
    obtain ⟨hspecial, hesc⟩ | ⟨hplain, hesc⟩ := escapeLetter_cases d
    · have hall : ∀ e ∈ entities, e.count ';' = 1 := by decide
      rw [hall _ hesc, beq_of_special hspecial (by decide)]
      simp [hspecial]
      omega
    · rw [hesc, List.count_singleton]
      simp [hplain]
      omega

theorem count_period_escape (s : List Char) :
    (s.flatMap escapeLetter).count '.' = s.count '.' := by
  induction s with
  | nil => rfl
  | cons d s ih =>
    rw [List.flatMap_cons, List.count_append, ih, List.count_cons]
    obtain ⟨hspecial, hesc⟩ | ⟨-, hesc⟩ := escapeLetter_cases d
    · have hall : ∀ e ∈ entities, e.count '.' = 0 := by decide
      rw [hall _ hesc, beq_of_special hspecial (by decide)]
      simp
    · rw [hesc, List.count_singleton]
      omega

theorem escape_eq_self (h : Plain s) : s.flatMap escapeLetter = s := by
  induction s with
  | nil => rfl
  | cons d s ih =>
    obtain ⟨hd, hs⟩ := List.forall_mem_cons.mp h
    obtain ⟨hspecial, -⟩ | ⟨-, hesc⟩ := escapeLetter_cases d
    · exact absurd hspecial hd
    · rw [List.flatMap_cons, hesc, ih hs]
      rfl

theorem plain_append : Plain (s ++ t) ↔ Plain s ∧ Plain t := List.forall_mem_append

theorem infix_escape (ht : Plain t) (h : t <:+: s) : t <:+: s.flatMap escapeLetter := by
  obtain ⟨x, y, rfl⟩ := h
  refine ⟨x.flatMap escapeLetter, y.flatMap escapeLetter, ?_⟩
  rw [List.flatMap_append, List.flatMap_append, escape_eq_self ht]

theorem infix_append_left {x y : List Char} (h : t <:+: x ++ y)
    (hlast : ∃ c, t.getLast? = some c ∧ c ∉ y) : t <:+: x := by
  obtain ⟨u, v, huv⟩ := h
  obtain ⟨c, hc, hout⟩ := hlast
  obtain ⟨w, rfl, -⟩ | ⟨w, hw, hy⟩ := List.append_eq_append_iff.mp huv
  · exact ⟨u, w, rfl⟩
  · cases w using List.reverseRecOn with
    | nil => exact ⟨u, [], by rw [List.append_nil, hw, List.append_nil]⟩
    | append_singleton w d =>
      have hd := congrArg List.getLast? hw
      rw [List.getLast?_append, hc, ← List.append_assoc, List.getLast?_concat] at hd
      obtain rfl : c = d := Option.some.inj hd
      exact absurd (hy ▸ by simp) hout

/-- A title that is put in raw is plain where it comes to its escaped form after the amount and the
description, and the escaped amount is left as it is after the description. -/
theorem plain_of_escaped {d x suffix amount description : List Char} (hd : '.' ∈ d)
    (hamount : amount ≠ [] ∧ '.' ∉ amount) (hdescription : description ≠ [])
    (hletters : '.' ∉ description ∧ ';' ∉ description ∧ Plain description)
    (hsuffix : description <:+: d ++ suffix → description <:+: d)
    (hleft : subst [(description, x)] (d.flatMap escapeLetter) = d.flatMap escapeLetter)
    (htitle : subst [(description, x)] (subst [(amount, d.flatMap escapeLetter)] (d ++ suffix)) =
      (d ++ suffix).flatMap escapeLetter) : Plain (d ++ suffix) := by
  have hne : ∀ e ∈ [(description, x)], e.1 ≠ [] := by simpa using hdescription
  -- The amount would bring in a point, and escaping adds none.
  have hamountOut : ¬ amount <:+: d ++ suffix := by
    intro hin
    have hbrought := count_subst_of_infix (v := d.flatMap escapeLetter) hamount.1 hamount.2 hin
    have hkept := le_count_subst hne (c := '.') (by simpa using hletters.1)
      (subst [(amount, d.flatMap escapeLetter)] (d ++ suffix))
    rw [htitle, count_period_escape] at hkept
    rw [count_period_escape] at hbrought
    have hpos := List.count_pos_iff.mpr hd
    omega
  have hfirst : subst [(amount, d.flatMap escapeLetter)] (d ++ suffix) = d ++ suffix :=
    subst_absent (by simpa using hamountOut)
  rw [hfirst] at htitle
  -- The description brings in no semicolon, and escaping adds one for each special character.
  have hsemicolons : ((d ++ suffix).flatMap escapeLetter).count ';' = (d ++ suffix).count ';' := by
    by_cases hin : description <:+: d ++ suffix
    · have hbrought := count_subst_of_infix (v := x) hdescription hletters.2.1
        (infix_escape hletters.2.2 (hsuffix hin))
      rw [hleft] at hbrought
      have hx : ';' ∉ x := List.count_eq_zero.mp (by omega)
      rw [← htitle]
      exact count_subst_of_not_mem hne (by simpa using hletters.2.1) (by simpa using hx) _
    · rw [← htitle]
      exact congrArg _ (subst_absent (by simpa using hin))
  rw [count_semicolon_escape] at hsemicolons
  have hzero : (d ++ suffix).countP (fun c => decide (c ∈ special)) = 0 := by omega
  exact fun c hc => by simpa using List.countP_eq_zero.mp hzero c hc

end escape

theorem mem_grouped {s : List Char} {c : Char} (h : c ∈ grouped s) : c ∈ s ∨ c = ',' := by
  induction s using grouped.induct with
  | case1 x y z w ds ih =>
    simp only [grouped, List.mem_cons] at h ih ⊢
    tauto
  | case2 ds hds =>
    rw [grouped] at h
    · exact .inl h
    · exact hds

theorem formatMajor_plain {amountCents : Int} {major : String}
    (h : formatMajor amountCents = some major) : Plain major.toList := by
  obtain ⟨x, -, rfl⟩ := Option.map_eq_some_iff.mp h
  have hdigit : ∀ c : Char, c.isDigit = true → c ∉ special := by
    intro c hc hs
    have hno : special.all (fun c => !c.isDigit) = true := by decide
    simpa [hc] using List.all_eq_true.mp hno c hs
  have hchar : ∀ k < 10, Nat.digitChar k ∉ special := by decide
  intro c hc
  simp only [String.toList_ofList, fixed2, thousands, List.mem_append, List.mem_reverse,
    List.mem_cons, List.not_mem_nil, or_false] at hc
  obtain hsign | hgroup | rfl | rfl | rfl := hc
  · split at hsign
    · rw [List.mem_singleton.mp hsign]
      decide
    · cases hsign
  · obtain hc | rfl := mem_grouped hgroup
    · exact hdigit c (Nat.isDigit_of_mem_toDigits (by decide) (by decide) (List.mem_reverse.mp hc))
    · decide
  · decide
  · exact hchar _ (by omega)
  · exact hchar _ (by omega)

theorem period_mem_formatMajor {amountCents : Int} {major : String}
    (h : formatMajor amountCents = some major) : '.' ∈ major.toList := by
  obtain ⟨x, -, rfl⟩ := Option.map_eq_some_iff.mp h
  simp [fixed2]

def openTokens : List (List Char) :=
  ["PK", "CLIENT_SECRET", "SUCCESS_URL", "TITLE", "AMOUNT_DISPLAY", "DESCRIPTION"].map
    (fun name => (marker name).toList)

theorem openTokens_eq : openTokens = ["PK", "CLIENT_SECRET", "SUCCESS_URL", "TITLE",
    "AMOUNT_DISPLAY", "DESCRIPTION"].map
      (fun name => '\x7b' :: '\x7b' :: (name.toList ++ ['\x7d', '\x7d'])) := by
  simp [openTokens, marker]

theorem separated_openTokens : Separated openTokens := by
  rw [openTokens_eq]
  decide +kernel

/-- What `checkout_session.html` is like: every placeholder stands in it, next to no other letter of a
placeholder, and any two of them have markup between them. -/
def WellPlaced (template : String) : Prop :=
  Delimited openTokens template.toList ∧ Walled openTokens markup template.toList ∧
    ∀ t ∈ openTokens, t <:+: template.toList

def Unchanged : List (String × String) → Prop
  | [] => True
  | (_, value) :: later => render later value = value ∧ Unchanged later

instance decidableUnchanged : (subs : List (String × String)) → Decidable (Unchanged subs)
  | [] => isTrue trivial
  | (_, value) :: later =>
    haveI := decidableUnchanged later
    inferInstanceAs (Decidable (render later value = value ∧ Unchanged later))

/-- No value joins with what may stand next to it to a later marker, other than one that is replaced
by itself. -/
def Unjoined : List (String × String) → Prop
  | [] => True
  | (_, value) :: later =>
    (∀ e ∈ later, e.2 ≠ e.1 → Apart value.toList e.1.toList) ∧ Unjoined later

def slotsOf (subs : List (String × String)) : List (Slot Char) :=
  subs.map (fun e => ⟨e.1.toList, e.2.toList, e.2.toList⟩)

section tables

variable {subs : List (String × String)}

theorem toList_render (subs : List (String × String)) (template : String) :
    (render subs template).toList =
      subs.foldl (fun out e => subst [(e.1.toList, e.2.toList)] out) template.toList := by
  induction subs generalizing template with
  | nil => rfl
  | cons e subs ih =>
    rw [render, List.foldl_cons, ← render, ih, List.foldl_cons, replace, String.toList_ofList]

theorem chain_slotsOf (subs : List (String × String)) (template : String) :
    chain (slotsOf subs) template.toList = (render subs template).toList := by
  rw [toList_render, chain, slotsOf, List.foldl_map]

theorem survives_slotsOf : Survives (slotsOf subs) ↔ Unchanged subs := by
  induction subs with
  | nil => exact Iff.rfl
  | cons e later ih =>
    refine and_congr ?_ ih
    change chain (slotsOf later) e.2.toList = e.2.toList ↔ _
    rw [chain_slotsOf, String.toList_inj]

theorem apartLater_slotsOf : ApartLater (slotsOf subs) ↔ Unjoined subs := by
  induction subs with
  | nil => exact Iff.rfl
  | cons e later ih =>
    refine and_congr ?_ ih
    change (∀ e' ∈ slotsOf later, e'.meant ≠ e'.token → Apart e.2.toList e'.token) ↔ _
    rw [slotsOf, List.forall_mem_map]
    exact forall₂_congr (fun f _ => by simp only [ne_eq, String.toList_inj])

end tables

section

variable [StrLower]

/-- What the placeholders stand for: their own values, escaped. -/
def openMeanings (args : OpenPage) (amountDisplay : String) : Meanings Char :=
  [((marker "PK").toList, (htmlEscape args.pk).toList),
    ((marker "CLIENT_SECRET").toList, (htmlEscape args.clientSecret).toList),
    ((marker "SUCCESS_URL").toList, (urlEscape ((truthy args.successUrl).getD "")).toList),
    ((marker "TITLE").toList, (htmlEscape (amountDisplay ++ " — 6ix Gateway")).toList),
    ((marker "AMOUNT_DISPLAY").toList, (htmlEscape amountDisplay).toList),
    ((marker "DESCRIPTION").toList, (htmlEscape ((truthy args.description).getD "Payment")).toList)]

def openSlots (args : OpenPage) (amountDisplay : String) : List (Slot Char) :=
  List.zipWith (fun e m => ⟨e.1.toList, e.2.toList, m.2⟩) (openSubs args amountDisplay)
    (openMeanings args amountDisplay)

variable {args : OpenPage} {amountDisplay template : String}

theorem tokens_openSlots : tokens (openSlots args amountDisplay) = openTokens := by
  simp only [tokens, openSlots, openSubs, openMeanings, openTokens, List.zipWith, List.map]

theorem meanings_openSlots :
    meanings (openSlots args amountDisplay) = openMeanings args amountDisplay := by
  simp only [meanings, openSlots, openSubs, openMeanings, List.zipWith, List.map]

theorem separated_openSlots : Separated (tokens (openSlots args amountDisplay)) :=
  tokens_openSlots ▸ separated_openTokens

theorem chain_openSlots : chain (openSlots args amountDisplay) template.toList =
    (render (openSubs args amountDisplay) template).toList := by
  rw [toList_render]
  simp only [chain, openSlots, openSubs, openMeanings, List.zipWith, List.foldl]

theorem urlEscape_cases (url : String) : urlEscape url = "" ∨ urlEscape url = htmlEscape url := by
  unfold urlEscape
  split
  · exact .inl rfl
  · simp only
    split
    · exact .inl rfl
    · exact .inr rfl

omit [StrLower] in
theorem markup_not_mem_htmlEscape {c : Char} (hc : c ∈ markup) (s : String) :
    c ∉ (htmlEscape s).toList := by
  rw [htmlEscape, String.toList_ofList]
  exact not_mem_escape hc

theorem markup_not_mem_openMeanings {c : Char} (hc : c ∈ markup) :
    ∀ e ∈ openMeanings args amountDisplay, c ∉ e.1 ∧ c ∉ e.2 := by
  intro e he
  constructor
  · have hall : ∀ t ∈ openTokens, t.all (· ∉ markup) = true := by
      rw [openTokens_eq]
      decide +kernel
    have htoken : e.1 ∈ openTokens := by
      rw [← tokens_openSlots, ← placeholders_meanings, meanings_openSlots]
      exact List.mem_map_of_mem he
    exact fun hmem => of_decide_eq_true (List.all_eq_true.mp (hall _ htoken) c hmem) hc
  · have hurl : c ∉ (urlEscape ((truthy args.successUrl).getD "")).toList := by
      obtain h | h := urlEscape_cases ((truthy args.successUrl).getD "")
      · rw [h]
        exact List.not_mem_nil
      · exact h ▸ markup_not_mem_htmlEscape hc _
    have hescaped := markup_not_mem_htmlEscape hc
    have hall : ∀ v ∈ (openMeanings args amountDisplay).map Prod.snd, c ∉ v := by
      simp only [openMeanings, List.map_cons, List.map_nil, List.forall_mem_cons]
      exact ⟨hescaped _, hescaped _, hurl, hescaped _, hescaped _, hescaped _, by simp⟩
    exact hall _ (List.mem_map_of_mem he)

variable [StrUpper]

/-- The page is the template with every placeholder replaced by the escaped form of its own value, in
whatever order the placeholders are listed, and it has no markup that the template does not have. -/
def Rendered (template : String) (args : OpenPage) : Prop :=
  ∃ amountDisplay out, formatAmount args.amountCents args.currency = some amountDisplay ∧
    renderOpenPage template args = some out ∧
    (∀ M : Meanings Char, M.Perm (openMeanings args amountDisplay) →
      out.toList = subst M template.toList) ∧
    ∀ c ∈ markup, out.toList.count c = template.toList.count c

/-- The amount can be formatted, the currency has no special character and no value is changed by
the replacements that follow it. -/
def Unrescanned (args : OpenPage) : Prop :=
  ∃ amountDisplay, formatAmount args.amountCents args.currency = some amountDisplay ∧
    Plain (upper args.currency).toList ∧ Unchanged (openSubs args amountDisplay)

theorem rendered_iff_chain (h : formatAmount args.amountCents args.currency = some amountDisplay) :
    Rendered template args ↔ chain (openSlots args amountDisplay) template.toList =
      subst (meanings (openSlots args amountDisplay)) template.toList := by
  have hM : Separated (placeholders (openMeanings args amountDisplay)) :=
    meanings_openSlots ▸ separated_meanings separated_openSlots
  rw [chain_openSlots, meanings_openSlots]
  constructor
  · rintro ⟨display, out, hdisplay, hout, hsubst, -⟩
    obtain rfl : display = amountDisplay := Option.some.inj (hdisplay.symm.trans h)
    rw [renderOpenPage, h] at hout
    obtain rfl := Option.some.inj hout
    exact hsubst _ (.refl _)
  · intro heq
    refine ⟨amountDisplay, render (openSubs args amountDisplay) template, h, ?_, ?_, ?_⟩
    · rw [renderOpenPage, h]
      rfl
    · exact fun M hperm => heq.trans (subst_perm hM hperm _).symm
    · intro c hc
      rw [heq]
      exact count_subst_of_not_mem (placeholders_ne_nil hM)
        (fun e he => (markup_not_mem_openMeanings hc e he).1)
        (fun e he => (markup_not_mem_openMeanings hc e he).2) _

omit [StrLower] in
theorem period_mem_formatAmount
    (h : formatAmount args.amountCents args.currency = some amountDisplay) :
    '.' ∈ amountDisplay.toList := by
  obtain ⟨major, hmajor, rfl⟩ := Option.map_eq_some_iff.mp h
  have hperiod := period_mem_formatMajor hmajor
  split <;> simp [hperiod]

omit [StrLower] in
theorem formatAmount_plain
    (h : formatAmount args.amountCents args.currency = some amountDisplay) :
    Plain amountDisplay.toList ↔ Plain (upper args.currency).toList := by
  obtain ⟨major, hmajor, rfl⟩ := Option.map_eq_some_iff.mp h
  have hplain := formatMajor_plain hmajor
  split
  · next husd =>
    have hletters : Plain "USD".toList := by decide
    rw [husd, String.toList_append, plain_append]
    exact ⟨fun _ => hletters, fun _ => ⟨by decide, hplain⟩⟩
  · rw [String.toList_append, String.toList_append, plain_append, plain_append]
    exact ⟨fun hall => hall.1.1, fun hupper => ⟨⟨hupper, by decide⟩, hplain⟩⟩

omit [StrLower] [StrUpper] in
theorem title_plain (amountDisplay : String) :
    Plain (amountDisplay ++ " — 6ix Gateway").toList ↔ Plain amountDisplay.toList := by
  rw [String.toList_append, plain_append]
  exact and_iff_left (by decide)

omit [StrUpper] in
theorem openSlots_eq (h : Plain amountDisplay.toList) :
    openSlots args amountDisplay = slotsOf (openSubs args amountDisplay) := by
  have htitle : (htmlEscape (amountDisplay ++ " — 6ix Gateway")).toList =
      (amountDisplay ++ " — 6ix Gateway").toList := by
    rw [htmlEscape, String.toList_ofList, escape_eq_self ((title_plain _).mpr h)]
  simp only [openSlots, slotsOf, openSubs, openMeanings, List.zipWith, List.map, htitle]

theorem plain_of_survives
    (h : formatAmount args.amountCents args.currency = some amountDisplay)
    (hs : Survives (openSlots args amountDisplay)) : Plain amountDisplay.toList := by
  simp only [openSlots, openSubs, openMeanings, List.zipWith, Survives] at hs
  obtain ⟨-, -, -, htitle, hamount, -⟩ := hs
  rw [← title_plain, String.toList_append]
  simp only [chain, List.foldl, htmlEscape, String.toList_ofList, String.toList_append]
    at htitle hamount
  refine plain_of_escaped (period_mem_formatAmount h) ?_ ?_ ?_ ?_ hamount htitle
  · simp [marker]
  · simp [marker]
  · simp [marker, Plain, special]
  · exact fun hin => infix_append_left hin ⟨'\x7d', by simp [marker], by decide⟩

theorem survives_iff_unrescanned
    (h : formatAmount args.amountCents args.currency = some amountDisplay) :
    Survives (openSlots args amountDisplay) ↔ Unrescanned args := by
  have hplain := formatAmount_plain h
  constructor
  · intro hs
    have hdisplay := plain_of_survives h hs
    rw [openSlots_eq hdisplay, survives_slotsOf] at hs
    exact ⟨amountDisplay, h, hplain.mp hdisplay, hs⟩
  · rintro ⟨display, hdisplay, hupper, hunchanged⟩
    obtain rfl : display = amountDisplay := Option.some.inj (hdisplay.symm.trans h)
    rw [openSlots_eq (hplain.mpr hupper), survives_slotsOf]
    exact hunchanged

theorem forall_rendered_iff
    (h : formatAmount args.amountCents args.currency = some amountDisplay)
    (P : List Char → Prop) : (∀ template : String, P template.toList → Rendered template args) ↔
      ∀ s, P s → chain (openSlots args amountDisplay) s =
        subst (meanings (openSlots args amountDisplay)) s := by
  constructor
  · intro hall s hs
    have hrendered := hall (String.ofList s) (by rwa [String.toList_ofList])
    rwa [rendered_iff_chain h, String.toList_ofList] at hrendered
  · exact fun hall template hs => (rendered_iff_chain h).mpr (hall _ hs)

theorem not_rendered (h : formatAmount args.amountCents args.currency = none) (template : String) :
    ¬ Rendered template args := by
  rintro ⟨display, out, hdisplay, -⟩
  rw [h] at hdisplay
  cases hdisplay

theorem not_unrescanned (h : formatAmount args.amountCents args.currency = none) :
    ¬ Unrescanned args := by
  rintro ⟨display, hdisplay, -⟩
  rw [h] at hdisplay
  cases hdisplay

omit [StrLower] [StrUpper] in
theorem delimited_empty : Delimited openTokens "".toList := by
  intro t ht x y hxy
  have hne : t ≠ [] := separated_openTokens.ne_nil ht
  simp_all

theorem wellPlaced_rendered_iff
    (h : formatAmount args.amountCents args.currency = some amountDisplay)
    (hw : WellPlaced template) : Rendered template args ↔ Unrescanned args := by
  obtain ⟨hd, hwalled, hin⟩ := hw
  have hs : Separated (tokens (openSlots args amountDisplay)) := separated_openSlots
  rw [← tokens_openSlots] at hd hwalled hin
  have hwalls : ∀ c ∈ markup, Outside (tokens (openSlots args amountDisplay)) c ∧
      ∀ e ∈ openSlots args amountDisplay, c ∉ e.meant := by
    intro c hc
    have hno := @markup_not_mem_openMeanings _ args amountDisplay c hc
    rw [← meanings_openSlots] at hno
    refine ⟨fun t ht => ?_, fun e he => (hno _ (List.mem_map_of_mem he)).2⟩
    obtain ⟨e, he, rfl⟩ := List.mem_map.mp ht
    exact (hno _ (List.mem_map_of_mem he)).1
  rw [rendered_iff_chain h, ← survives_iff_unrescanned h, survives_iff hs,
    chain_walled_iff hs hwalls hd hwalled]
  exact forall₂_congr (fun e he => imp_iff_right (hin _ (List.mem_map_of_mem he)))

/-- A page is rendered as it is meant exactly when no value is rescanned: for each template in which
the placeholders are well placed, and for all in which they are delimited. For every template at all
it is exactly when, besides, no value joins with the text around it to a marker. -/
theorem rendered_iff (args : OpenPage) :
    (∀ template, WellPlaced template → (Rendered template args ↔ Unrescanned args)) ∧
    ((∀ template : String, Delimited openTokens template.toList → Rendered template args) ↔
      Unrescanned args) ∧
    ((∀ template, Rendered template args) ↔ Unrescanned args ∧
      ∀ amountDisplay, formatAmount args.amountCents args.currency = some amountDisplay →
        Unjoined (openSubs args amountDisplay)) := by
  cases h : formatAmount args.amountCents args.currency with
  | none =>
    have hno := not_rendered h
    have hno' := not_unrescanned h
    exact ⟨fun template _ => iff_of_false (hno template) hno',
      iff_of_false (fun hall => hno _ (hall "" delimited_empty)) hno',
      iff_of_false (fun hall => hno "" (hall "")) (fun hun => hno' hun.1)⟩
  | some amountDisplay =>
    have hs : Separated (tokens (openSlots args amountDisplay)) := separated_openSlots
    refine ⟨fun template => wellPlaced_rendered_iff h, ?_⟩
    rw [← survives_iff_unrescanned h]
    constructor
    · rw [forall_rendered_iff h, ← tokens_openSlots]
      exact chain_delimited_iff hs
    · have hall := forall_rendered_iff h (fun _ => True)
      simp only [true_imp_iff] at hall
      rw [hall, chain_iff hs]
      refine and_congr_right (fun hsurvives => ?_)
      rw [openSlots_eq (plain_of_survives h hsurvives), apartLater_slotsOf]
      simp

end

/-- The lines of `checkout_session.html` that have placeholders, without their indentation. -/
def checkoutLines : List String :=
  ["<meta name=\x22stripe-pk\x22 content=\x22\x7b\x7bPK\x7d\x7d\x22 />",
    "<meta name=\x22client-secret\x22 content=\x22\x7b\x7bCLIENT_SECRET\x7d\x7d\x22 />",
    "<meta name=\x22success-url\x22 content=\x22\x7b\x7bSUCCESS_URL\x7d\x7d\x22 />",
    "<title>\x7b\x7bTITLE\x7d\x7d</title>",
    "<span class=\x22value\x22>\x7b\x7bDESCRIPTION\x7d\x7d</span>",
    "<span class=\x22value\x22>\x7b\x7bAMOUNT_DISPLAY\x7d\x7d</span>",
    "<button id=\x22pay-btn\x22 class=\x22pay-btn\x22 type=\x22submit\x22>Pay \x7b\x7bAMOUNT_DISPLAY\x7d\x7d</button>"]

def checkoutSession : String := String.ofList (checkoutLines.flatMap String.toList)

theorem wellPlaced_checkoutSession : WellPlaced checkoutSession := by
  rw [WellPlaced, checkoutSession, String.toList_ofList, openTokens_eq]
  decide +kernel

/-- The page of an order whose description has special characters. -/
def ordered : OpenPage := ⟨"pk_test", "secret", 1000, "usd", some "Shoes & <socks>", none⟩

theorem rendered_iff_ordered : Rendered checkoutSession ordered :=
  ((rendered_iff ordered).1 checkoutSession wellPlaced_checkoutSession).mpr
    ⟨"$10.00", by decide +kernel, by decide +kernel, by decide +kernel⟩

/-- The page of a session whose address to go to names the description. -/
def readdressed : OpenPage :=
  ⟨"pk_test", "secret", 1000, "usd", some "Shoes", some "https://shop.io/\x7b\x7bDESCRIPTION\x7d\x7d"⟩

/-- The page of a session whose currency is written as a tag. -/
def tagged : OpenPage := ⟨"pk_test", "secret", 1000, "<b>", none, none⟩

/-- The address that the page goes to has the description put into it, and the title has the tag. -/
theorem page_rescanned :
    (¬ Rendered "<meta content=\x22\x7b\x7bSUCCESS_URL\x7d\x7d\x22 />" readdressed) ∧
      ¬ Rendered "<title>\x7b\x7bTITLE\x7d\x7d</title>" tagged := by
  constructor
  · have hamount : formatAmount readdressed.amountCents readdressed.currency = some "$10.00" := by
      decide +kernel
    rw [rendered_iff_chain hamount]
    decide +kernel
  · have hamount : formatAmount tagged.amountCents tagged.currency = some "<B> 10.00" := by
      decide +kernel
    rw [rendered_iff_chain hamount]
    decide +kernel

end SixGateway.Substitution
