import SixGateway.Library.Cells
import SixGateway.Substitution
import SixGateway.Sessions
import SixGateway.Concurrency
import SixGateway.Contract

namespace SixGateway.PageMarkup

open Library Library.Run Library.Template Models Errors Database StripeClient CheckoutService
open PaymentService HostedPage Rendering Substitution MerchantService Server Queries Sessions
open Concurrency

def isMarkup (c : Char) : Bool := decide (c ∈ markup)

/-- A text that can neither open nor close a tag or an attribute. -/
def Unmarked (s : String) : Prop := ∀ c ∈ s.toList, isMarkup c = false

instance (s : String) : Decidable (Unmarked s) :=
  List.decidableBAll (fun c => isMarkup c = false) s.toList

/-- What a reader of HTML makes of the entities that `html.escape` writes. -/
def entityMeanings : Meanings Char :=
  [("&amp;".toList, ['&']), ("&lt;".toList, ['<']), ("&gt;".toList, ['>']),
    ("&quot;".toList, ['\x22']), ("&#x27;".toList, ['\x27'])]

def unescape (s : String) : String := String.ofList (subst entityMeanings s.toList)

section escape

variable {c : Char} {s t : String}

theorem isMarkup_iff : isMarkup c = true ↔ c ∈ markup := decide_eq_true_iff

theorem unmarked_iff : Unmarked s ↔ ∀ c ∈ markup, c ∉ s.toList := by
  constructor
  · exact fun h c hc hmem => Bool.eq_false_iff.mp (h c hmem) (isMarkup_iff.mpr hc)
  · exact fun h c hmem => Bool.eq_false_iff.mpr (fun hc => h c (isMarkup_iff.mp hc) hmem)

theorem unmarked_append : Unmarked (s ++ t) ↔ Unmarked s ∧ Unmarked t := by
  rw [Unmarked, String.toList_append]
  exact List.forall_mem_append

theorem unmarked_htmlEscape (s : String) : Unmarked (htmlEscape s) :=
  unmarked_iff.mpr (fun _ hc => markup_not_mem_htmlEscape hc s)

theorem separated_entities : Separated (placeholders entityMeanings) := by
  decide +kernel

theorem escapeLetter_meant (hc : c ∈ special) : (escapeLetter c, [c]) ∈ entityMeanings := by
  simp only [special, List.mem_cons, List.not_mem_nil, or_false] at hc
  obtain rfl | rfl | rfl | rfl | rfl := hc <;> decide

theorem begins_entity {e : List Char × List Char} (he : e ∈ entityMeanings) : ['&'] <+: e.1 := by
  revert e
  decide

theorem unescape_htmlEscape (s : String) : unescape (htmlEscape s) = s := by
  rw [unescape, htmlEscape, String.toList_ofList, ← String.toList_inj, String.toList_ofList]
  induction s.toList with
  | nil => rfl
  | cons c s ih =>
    rw [List.flatMap_cons]
    obtain ⟨hspecial, -⟩ | ⟨hplain, hesc⟩ := escapeLetter_cases c
    · rw [subst_of_mem separated_entities (escapeLetter_meant hspecial), ih, List.singleton_append]
    · rw [hesc, List.singleton_append, subst_letter, ih]
      refine match?_eq_none.mpr (fun e he hpre => hplain ?_)
      obtain ⟨u, hu⟩ := (begins_entity he).trans hpre
      exact (List.cons.inj hu).1 ▸ List.mem_cons_self

end escape

def rendering (subs : List (String × String)) (s : List Char) : List Char :=
  (render subs (String.ofList s)).toList

theorem rendering_eq (subs : List (String × String)) : rendering subs = chain (slotsOf subs) := by
  funext s
  rw [rendering, ← chain_slotsOf, String.toList_ofList]

theorem forall_slotsOf {subs : List (String × String)} :
    (∀ e ∈ slotsOf subs, ∀ c ∈ e.value, isMarkup c = false) ↔ ∀ e ∈ subs, Unmarked e.2 := by
  rw [slotsOf, List.forall_mem_map]
  exact Iff.rfl

section

variable [StrLower]

/-- An address that leads to another page, and runs nothing. -/
def Web (url : String) : Prop :=
  "http://".toList <+: lstrip (lower url).toList ∨ "https://".toList <+: lstrip (lower url).toList

/-- No link, or one whose address reads as that of the action. -/
def Leads (action : Option String) (link : String) : Prop :=
  link = "" ∨ ∃ url href, action = some url ∧ Web url ∧ Unmarked href ∧
    unescape href = url ∧
    link = "<a class=\x22btn\x22 href=\x22" ++ href ++ "\x22>Continue</a>"

theorem urlEscape_web (url : String) :
    urlEscape url = "" ∨ Web url ∧ urlEscape url = htmlEscape url := by
  unfold urlEscape
  split
  · exact .inl rfl
  · simp only
    split
    · exact .inl rfl
    · next hweb => exact .inr ⟨not_not.mp hweb, rfl⟩

theorem leads_renderActionLink (action : Option String) :
    Leads action (renderActionLink action) := by
  rw [renderActionLink]
  split
  · exact .inl rfl
  · next hsafe =>
    obtain hnone | ⟨hweb, hesc⟩ := urlEscape_web ((truthy action).getD "")
    · exact absurd hnone hsafe
    · rw [hesc]
      refine .inr ⟨_, _, ?_, hweb, unmarked_htmlEscape _, unescape_htmlEscape _, rfl⟩
      cases hgiven : truthy action with
      | none =>
        rw [hgiven] at hsafe
        exact absurd rfl hsafe
      | some url => exact truthy_some hgiven

variable {args : OpenPage} {display : String} {s : List Char}

theorem unmarked_urlEscape (url : String) : Unmarked (urlEscape url) := by
  obtain h | h := urlEscape_cases url
  · rw [h]
    exact fun c hc => absurd hc List.not_mem_nil
  · exact h ▸ unmarked_htmlEscape url

/-- Of the values on the page of an open session, the title alone is not escaped. -/
theorem openSubs_unmarked_iff :
    (∀ e ∈ openSubs args display, Unmarked e.2) ↔ Unmarked display := by
  have hesc := unmarked_htmlEscape
  have htitle : Unmarked " — 6ix Gateway" := by decide
  simp only [openSubs, List.forall_mem_cons, unmarked_append, hesc, unmarked_urlEscape, htitle]
  simp

/-- The replacements of `_render_message_page` before the last one, which puts the link in. -/
def textSubs (args : MessagePage) : List (String × String) :=
  [(marker "TITLE", htmlEscape args.title),
    (marker "HEADING", htmlEscape args.heading),
    (marker "BODY", htmlEscape args.body),
    (marker "ICON_GLYPH", args.iconGlyph),
    (marker "ICON_CLASS", args.iconClass)]

theorem renderMessagePage_eq (template : String) (args : MessagePage) :
    renderMessagePage template args = replace (render (textSubs args) template)
      (marker "ACTION_HTML") (renderActionLink args.action) := rfl

omit [StrLower] in
theorem outside_markers {names : List String} (hnames : ∀ name ∈ names, Unmarked name) (c : Char)
    (hc : isMarkup c = true) : Outside (names.map (fun name => (marker name).toList)) c := by
  intro t ht
  obtain ⟨name, hname, rfl⟩ := List.mem_map.mp ht
  have hmarker : Unmarked (marker name) := by
    have hopening : Unmarked "\x7b\x7b" := by decide
    have hclosing : Unmarked "\x7d\x7d" := by decide
    rw [marker, unmarked_append, unmarked_append]
    exact ⟨⟨hopening, hnames name hname⟩, hclosing⟩
  exact unmarked_iff.mp hmarker c (isMarkup_iff.mp hc)

theorem tokens_openSubs : tokens (slotsOf (openSubs args display)) = openTokens := by
  simp only [tokens, slotsOf, openSubs, openTokens, List.map]

theorem outside_openTokens (c : Char) (hc : isMarkup c = true) :
    Outside (tokens (slotsOf (openSubs args display))) c := by
  rw [tokens_openSubs]
  refine outside_markers ?_ c hc
  decide

def textTokens : List (List Char) :=
  ["TITLE", "HEADING", "BODY", "ICON_GLYPH", "ICON_CLASS"].map (fun name => (marker name).toList)

omit [StrLower] in
theorem tokens_textSubs (args : MessagePage) : tokens (slotsOf (textSubs args)) = textTokens := by
  simp only [tokens, slotsOf, textSubs, textTokens, List.map]

omit [StrLower] in
theorem separated_textTokens : Separated textTokens := by
  have htokens : textTokens = ["TITLE", "HEADING", "BODY", "ICON_GLYPH", "ICON_CLASS"].map
      (fun name => '\x7b' :: '\x7b' :: (name.toList ++ ['\x7d', '\x7d'])) := by
    simp [textTokens, marker]
  rw [htokens]
  decide +kernel

omit [StrLower] in
theorem message_byCells {args : MessagePage} (hglyph : Unmarked args.iconGlyph)
    (hclass : Unmarked args.iconClass) (s : List Char) :
    ByCells isMarkup (rendering (textSubs args)) s := by
  rw [rendering_eq]
  refine chain_byCells ((tokens_textSubs args).symm ▸ separated_textTokens) (fun c hc => ?_) ?_ s
  · rw [tokens_textSubs]
    refine outside_markers ?_ c hc
    decide
  · have hesc := unmarked_htmlEscape
    rw [forall_slotsOf]
    simp only [textSubs, List.forall_mem_cons, hesc, hglyph, hclass]
    simp

variable [StrUpper] {template : String}

omit [StrLower] in
theorem unmarked_formatAmount {amountCents : Int} {currency : String}
    (h : formatAmount amountCents currency = some display) :
    Unmarked display ↔ Unmarked (upper currency) := by
  obtain ⟨major, hmajor, rfl⟩ := Option.map_eq_some_iff.mp h
  have hplain : Unmarked major := unmarked_iff.mpr (fun c hc hmem =>
    formatMajor_plain hmajor c hmem (List.mem_cons_of_mem _ hc))
  split
  · next husd =>
    have hletters : Unmarked "USD" := by decide
    have hsign : Unmarked "$" := by decide
    rw [husd, unmarked_append]
    exact ⟨fun _ => hletters, fun _ => ⟨hsign, hplain⟩⟩
  · have hspace : Unmarked " " := by decide
    rw [unmarked_append, unmarked_append]
    exact ⟨fun hall => hall.1.1, fun hupper => ⟨⟨hupper, hspace⟩, hplain⟩⟩

theorem form_byCells (h : formatAmount args.amountCents args.currency = some display)
    (hcurrency : Unmarked (upper args.currency)) (s : List Char) :
    ByCells isMarkup (rendering (openSubs args display)) s := by
  rw [rendering_eq]
  refine chain_byCells (tokens_openSubs ▸ separated_openTokens) outside_openTokens ?_ s
  rw [forall_slotsOf, openSubs_unmarked_iff, unmarked_formatAmount h]
  exact hcurrency

theorem form_byCells_iff (h : formatAmount args.amountCents args.currency = some display)
    (hin : ∀ t ∈ openTokens, t <:+: s) :
    ByCells isMarkup (rendering (openSubs args display)) s ↔ Unmarked (upper args.currency) := by
  have htokens : tokens (slotsOf (openSubs args display)) = openTokens := tokens_openSubs
  rw [rendering_eq, chain_byCells_iff (htokens ▸ separated_openTokens) outside_openTokens
    (htokens ▸ hin), forall_slotsOf, openSubs_unmarked_iff, unmarked_formatAmount h]

/-- The secret that a store holds for a session: the one of the session's intent. -/
def secretIn (db : Db) (cs : CheckoutSession) : Option String :=
  (cs.paymentIntentId.bind db.intentById).bind (fun p => truthy p.clientSecret)

/-- The pages of a session, by its status and, while it is OPEN, by the secret that one of the stores
in `Now` holds for it. -/
inductive PageOf (Now : Db → Prop) (pk : String) (cs : CheckoutSession) : Page → Prop
  | complete (paid : cs.status = .completed) : PageOf Now pk cs (completePage cs)
  | expired (lapsed : cs.status = .expired) : PageOf Now pk cs expiredPage
  | unavailable (live : cs.status = .opened) (db : Db) (now : Now db)
      (missing : secretIn db cs = none) : PageOf Now pk cs unavailablePage
  | form (live : cs.status = .opened) (db : Db) (now : Now db) (clientSecret : String)
      (held : secretIn db cs = some clientSecret) : PageOf Now pk cs (openPage pk cs clientSecret)

/-- What the answer about a session is: the payment form, which has the markup of its template and the
parts between it filled in one by one, unless the currency has markup; or a message, which is so
in any case, with a link put in. -/
inductive Presented (Now : Db → Prop) (d : Deployment) (cs : CheckoutSession) :
    Nat → String → Prop
  | form (args : OpenPage) (page : PageOf Now d.stripePublishableKey cs (.form args))
      (display : String)
      (amount : formatAmount args.amountCents args.currency = some display)
      (cells : Unmarked (upper args.currency) →
        ByCells isMarkup (rendering (openSubs args display)) d.sessionTemplate.toList)
      (exact_cells : (∀ t ∈ openTokens, t <:+: d.sessionTemplate.toList) →
        ByCells isMarkup (rendering (openSubs args display)) d.sessionTemplate.toList →
          Unmarked (upper args.currency)) :
      Presented Now d cs 200 (render (openSubs args display) d.sessionTemplate)
  | message (statusCode : Nat) (args : MessagePage)
      (page : PageOf Now d.stripePublishableKey cs (.message statusCode args))
      (cells : ByCells isMarkup (rendering (textSubs args)) d.messageTemplate.toList)
      (leads : Leads args.action (renderActionLink args.action)) :
      Presented Now d cs statusCode (replace (render (textSubs args) d.messageTemplate)
        (marker "ACTION_HTML") (renderActionLink args.action))

variable {Now : Db → Prop} {d : Deployment} {sessionId pk : String}
  {cs : CheckoutSession}

omit [StrLower] [StrUpper] in
theorem sees_hostedCheckoutPage (At : Nat → Db → Prop) (pk sessionId : String) (env : Env) :
    (HostedPage.hostedCheckoutPage pk sessionId env).Sees At (fun _ page => ∃ i db cs, At i db ∧
      db.sessionById sessionId = some cs ∧
        PageOf (fun now => ∃ j, i ≤ j ∧ At j now) pk cs page) 0 := by
  refine (sees_getOpenSession sessionId env 0).bind ?_
  rintro k cs - ⟨i, db, -, hik, hdb, hl⟩
  rw [sessionPage]
  split
  · next paid => exact ⟨i, db, cs, hdb, hl, .complete paid⟩
  · next lapsed => exact ⟨i, db, cs, hdb, hl, .expired lapsed⟩
  · next live =>
    split
    · next unlinked =>
      exact ⟨i, db, cs, hdb, hl, .unavailable live db ⟨i, le_rfl, hdb⟩ (by simp [secretIn, unlinked])⟩
    · next id linked =>
      intro j hj now hnow
      have hsecret : (now.intentById id).bind (fun p => truthy p.clientSecret) = secretIn now cs := by
        rw [secretIn, linked, Option.bind_some]
      simp only [intentPage, hsecret]
      split
      · next missing =>
        exact ⟨i, db, cs, hdb, hl, .unavailable live now ⟨j, hik.trans hj, hnow⟩ missing⟩
      · next held =>
        exact ⟨i, db, cs, hdb, hl, .form live now ⟨j, hik.trans hj, hnow⟩ _ held⟩

omit [StrLower] [StrUpper] in
theorem PageOf.mono {Now' : Db → Prop} {page : Page} (h : PageOf Now pk cs page)
    (hnow : ∀ db, Now db → Now' db) : PageOf Now' pk cs page := by
  cases h with
  | complete paid => exact .complete paid
  | expired lapsed => exact .expired lapsed
  | unavailable live db now missing => exact .unavailable live db (hnow db now) missing
  | form live db now clientSecret held => exact .form live db (hnow db now) clientSecret held

omit [StrLower] [StrUpper] in
theorem PageOf.icons {statusCode : Nat} {args : MessagePage}
    (h : PageOf Now pk cs (.message statusCode args)) :
    Unmarked args.iconGlyph ∧ Unmarked args.iconClass := by
  have hglyph : Unmarked "✓" ∧ Unmarked "⌛" ∧ Unmarked "!" := by decide
  have hclass : Unmarked "success" ∧ Unmarked "" := by decide
  cases h with
  | complete => exact ⟨hglyph.1, hclass.1⟩
  | expired => exact ⟨hglyph.2.1, hclass.2⟩
  | unavailable => exact ⟨hglyph.2.2, hclass.2⟩

theorem servePage_presented {page : Page} (h : PageOf Now d.stripePublishableKey cs page) :
    servePage d page = .raise .overflowError ∨ ∃ statusCode text,
      servePage d page = .ret ⟨statusCode, .html text⟩ ∧ Presented Now d cs statusCode text := by
  cases page with
  | form args =>
    rw [servePage, renderPage, renderOpenPage]
    cases hamount : formatAmount args.amountCents args.currency with
    | none => exact .inl rfl
    | some display =>
      exact .inr ⟨200, _, rfl, .form args h display hamount
        (fun hcurrency => form_byCells hamount hcurrency _)
        (fun hin => (form_byCells_iff hamount hin).mp)⟩
  | message statusCode args =>
    have hcells := message_byCells h.icons.1 h.icons.2 d.messageTemplate.toList
    rw [servePage, renderPage, renderMessagePage_eq]
    exact .inr ⟨statusCode, _, rfl, .message statusCode args h hcells (leads_renderActionLink _)⟩

variable [StrRepr]

theorem sees_request (d : Deployment) {r : HttpRequest} (asked : r.route = .hostedCheckoutPage sessionId)
    (Seen : Nat → Site → Prop) :
    (r.program d).Sees Seen (fun _ a => ∃ i site cs text, Seen i site ∧
      site.db.sessionById sessionId = some cs ∧ a.content = .html text ∧
      Presented (fun now => ∃ j later, i ≤ j ∧ Seen j later ∧ later.db = now) d cs a.statusCode
        text) 0 := by
  rw [HttpRequest.program, asked]
  have hpage := (sees_hostedCheckoutPage (fun n db => ∃ site, Seen n site ∧ site.db = db)
    d.stripePublishableKey sessionId r.surroundings.env).embed onPayments
      (fun _ site _ hsite => ⟨site, hsite, rfl⟩)
  refine hpage.bind ?_
  rintro n page - ⟨i, _, cs, ⟨site, hsite, rfl⟩, hl, hof⟩
  have hof' : PageOf (fun now => ∃ j later, i ≤ j ∧ Seen j later ∧ later.db = now)
      d.stripePublishableKey cs page := by
    refine hof.mono ?_
    rintro now ⟨j, hj, later, hlater, rfl⟩
    exact ⟨j, later, hj, hlater, rfl⟩
  obtain hraised | ⟨statusCode, text, hserved, hpresented⟩ := servePage_presented hof'
  · rw [hraised]
    trivial
  · rw [hserved]
    exact ⟨i, site, cs, text, hsite, hl, rfl, hpresented⟩

/-- Every page that is served shows a session as some committed state had it, with the secret of its
intent as that state or a later one had it. No value on it can add to the markup: what stands
between two marks of the template is filled in by itself, and a link leads to an address of the web
only. The currency of a session is the one value on which this depends. -/
theorem pages_contained (d : Deployment) (start : Site) (calls : List (StripeCall × StripeAnswer))
    (rs : List HttpRequest) (ls : List Label)
    {st : Pool Site StripeCall StripeAnswer SiteStmt Responses.Failure Answer}
    (hrun : run (Pool.step SiteStmt.apply) (Server.serving d start calls rs) ls = some st)
    (i : Nat) {r : HttpRequest} (hi : rs[i]? = some r) {sessionId : String}
    (asked : r.route = .hostedCheckoutPage sessionId) {a : Answer}
    (ha : st.threads[i]? = some (.ret a)) :
    ∃ n past cs text, SiteAt d start calls rs ls n past ∧ past.db.sessionById sessionId = some cs ∧
      a.content = .html text ∧ Presented (fun now => ∃ k later, n ≤ k ∧
        SiteAt d start calls rs ls k later ∧ later.db = now) d cs a.statusCode text := by
  have hp : (Server.serving d start calls rs).threads[i]? = some (r.program d) := by
    simp [Server.serving, hi]
  obtain ⟨-, h⟩ := Pool.sees_run hp (sees_request d asked (SiteAt d start calls rs ls)) le_rfl
    (fun k u hu => ⟨u, (Nat.zero_add k).symm ▸ hu, rfl⟩) hrun ha
  exact h

end

def paidSession : CheckoutSession :=
  { Contract.staleSession with status := .completed, successUrl := some "https://shop.io/?a=1&b=2" }

def paidShop : Site :=
  { Contract.shop with db := { Db.empty with checkoutSessions := ⟨[paidSession], by decide⟩ } }

def templated : Deployment :=
  { Contract.deployment with
    sessionTemplate := "<title>\x7b\x7bTITLE\x7d\x7d</title>"
    messageTemplate := "<h1>\x7b\x7bHEADING\x7d\x7d</h1>\x7b\x7bACTION_HTML\x7d\x7d" }

def visiting : HttpRequest := ⟨.hostedCheckoutPage "cs_1", ⟨none, none, none⟩, Contract.moment 1⟩

theorem pages_contained_visiting :
    ∃ st a, run (Pool.step SiteStmt.apply) (Server.serving templated paidShop [] [visiting])
        [(0, .run)] = some st ∧ st.threads[0]? = some (.ret a) ∧
      ∃ n past cs text, SiteAt templated paidShop [] [visiting] [(0, .run)] n past ∧
        past.db.sessionById "cs_1" = some cs ∧ a.content = .html text ∧
        Presented (fun now => ∃ k later, n ≤ k ∧
          SiteAt templated paidShop [] [visiting] [(0, .run)] k later ∧ later.db = now)
            templated cs a.statusCode text := by
  have hrun : ((run (Pool.step SiteStmt.apply) (Server.serving templated paidShop [] [visiting])
      [(0, .run)]).bind (fun st => (st.threads[0]?.bind Program.result?).bind
        Except.toOption)).isSome = true := by
    decide +kernel
  obtain ⟨a, ha⟩ := Option.isSome_iff_exists.mp hrun
  obtain ⟨st, hst, ha⟩ := Option.bind_eq_some_iff.mp ha
  obtain ⟨x, hx, ha⟩ := Option.bind_eq_some_iff.mp ha
  obtain ⟨p, hp, hx⟩ := Option.bind_eq_some_iff.mp hx
  cases p with
  | ret a =>
    exact ⟨st, a, hst, hp, pages_contained templated paidShop [] [visiting] _ hst 0 rfl rfl hp⟩
  | raise e =>
    cases hx
    cases ha
  | read | call | commit => cases hx

end SixGateway.PageMarkup
