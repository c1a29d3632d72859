import MightyColab.Lib.Dict
import MightyColab.Lib.JsonTree
import MightyColab.Job.UrlIdentity
import MightyColab.Job.Runner

/-!
# The transfer channel

`stage_payload` writes the two manifests without URLs and the credential file with all of
them; the runner puts them together again. What is written as JSON is read as it was.
-/

namespace MightyColab
namespace Job

open Lib

namespace TransferChannel

/-!
## Staging
-/

def urlRef (tools : UrlTools) (url : String) : String := tools.sha256 url

/-- A row of `stage.manifest.json`. -/
def dataRow (tools : UrlTools) (item : DataItem) : Json.Fields :=
  [("url_id", .str (tools.urlId item.url)), ("url_ref", .str (urlRef tools item.url)),
    ("dest", .str item.dest), ("sha256", Json.optStr item.sha256),
    ("size_bytes", Json.optional (item.sizeBytes.map Json.int))]

/-- A row of `offload.manifest.json`. -/
def artifactRow (tools : UrlTools) (item : ArtifactItem) : Json.Fields :=
  [("url_id", .str (tools.urlId item.url)), ("url_ref", .str (urlRef tools item.url)),
    ("path", .str item.path), ("required", .bool item.required)]

def resultPutUrl (spec : JobSpec) : Option String :=
  (spec.control.result.map ControlChannel.putUrl).filter (· ≠ "")

def channelUrls (spec : JobSpec) : List String :=
  spec.data.map DataItem.url ++ spec.artifacts.map ArtifactItem.url ++
    (resultPutUrl spec).toList

def channelItems (tools : UrlTools) (spec : JobSpec) : List (String × String) :=
  Dict.ofPairs ((channelUrls spec).map fun url => (urlRef tools url, url))

/-- What `stage_payload` leaves on the VM for the transfers. -/
structure Staged where
  stage : Json
  offload : Json
  /-- `transfer.json`, which is not written where it would hold no URL. -/
  transfer : Option Json

/-- `stage_payload`, from the manifests on. -/
def stagePayload (tools : UrlTools) (spec : JobSpec) : Staged where
  stage := .arr (spec.data.map fun item => .obj (dataRow tools item))
  offload := .arr (spec.artifacts.map fun item => .obj (artifactRow tools item))
  transfer :=
    let urls := channelItems tools spec
    if urls = [] then none
    else some (.obj
      [("schema_version", .int 1), ("urls", .obj (urls.map fun (k, v) => (k, .str v))),
        ("result_put_ref", Json.optStr ((resultPutUrl spec).map (urlRef tools)))])

/-!
## The runner
-/

/-- `_url_id`. -/
def runnerUrlId (tools : UrlTools) (url : String) : String :=
  let shown := match tools.urlsplit url with
    | none => Url.before '#' (Url.before '?' url.toList)
    | some parts =>
        let host := (Url.hostname tools.unicode parts.netloc).getD []
        let host := if ':' ∈ host ∧ host.head? ≠ some '[' then '[' :: host ++ [']'] else host
        let host := match Url.port parts.netloc with
          | none => host
          | some port => host ++ ':' :: Nat.toDigits 10 port
        parts.scheme ++ ':' :: '/' :: '/' :: (host ++ parts.path)
  String.ofList shown ++ "#" ++ String.ofList ((tools.sha256 url).toList.take 12)

def urlReader (tools : UrlTools) : Runner.UrlReader where
  urlId := runnerUrlId tools
  query url := match tools.urlsplit url with
    | none => .error (Runner.valueError "Invalid URL")
    | some parts => .ok (String.ofList parts.query)

def itemOk (tools : UrlTools) (item : String × Json) : Bool :=
  isDigest item.1.toList &&
    (match item.2 with
      | .str url => tools.sha256 url == item.1
      | _ => false)

/-- `_load_transfer_secrets` of the parsed file, if there is a descriptor to read it from. -/
def loadTransferSecrets (tools : UrlTools) :
    Option Json -> Except Runner.Failure (List (String × String) × Option String)
  | none => .ok ([], none)
  | some payload =>
      match payload.asObj? with
      | none =>
          .error (Runner.manifestError
            "transfer credential channel: schema_version is not 1")
      | some fields =>
          if !(Json.Fields.get fields "schema_version").eqInt 1 then
            .error (Runner.manifestError
              "transfer credential channel: schema_version is not 1")
          else
            match (Json.Fields.get fields "urls").asObj? with
            | none =>
                .error (Runner.manifestError
                  "transfer credential channel: urls is not an object")
            | some items =>
                if !items.all (itemOk tools) then
                  .error (Runner.manifestError ("transfer credential channel: a URL does " ++
                    "not match its sha256 reference"))
                else
                  let urls := items.filterMap fun (k, v) => v.asStr?.map (k, ·)
                  match Json.Fields.get fields "result_put_ref" with
                  | .null => .ok (urls, none)
                  | .str reference =>
                      match urls.lookup reference with
                      | some url => .ok (urls, some url)
                      | none =>
                          .error (Runner.manifestError
                            "transfer credential channel: result_put_ref names no URL")
                  | _ =>
                      .error (Runner.manifestError
                        "transfer credential channel: result_put_ref names no URL")

def resolved (tools : UrlTools) (urls : List (String × String)) (manifest : Json) :
    Except Runner.Failure (List (Except Runner.Failure String)) :=
  (Runner.loadManifest (some "manifest.json") (.ok manifest)).map fun rows =>
    rows.map fun row =>
      match row with
      | .obj fields => Runner.resolveTransferUrl (urlReader tools) fields urls
      | _ => .error (Runner.manifestError "manifest row is not an object")

/-!
## The two identities
-/

variable {tools : UrlTools} {spec : JobSpec} {url : String}

theorem runnerUrlId_eq (tools : UrlTools) (url : String) :
    runnerUrlId tools url = tools.urlId url := by
  unfold runnerUrlId UrlTools.urlId UrlTools.canonicalUrl
  cases hsplit : tools.urlsplit url with
  | none => rfl
  | some parts =>
      simp only [UrlTools.publicText, Url.writeNetloc, Url.bracketed]
      cases Url.port parts.netloc <;> simp [Url.portText]

/-!
## The credential file
-/

/-- No two URLs of the spec have the same digest. -/
def NoCollision (tools : UrlTools) (spec : JobSpec) : Prop :=
  forall a b, a ∈ channelUrls spec -> b ∈ channelUrls spec ->
    tools.sha256 a = tools.sha256 b -> a = b

instance : Decidable (NoCollision tools spec) :=
  decidable_of_iff
    (forall a, a ∈ channelUrls spec -> forall b, b ∈ channelUrls spec ->
      tools.sha256 a = tools.sha256 b -> a = b)
    ⟨fun h a b ha hb => h a ha b hb, fun h a ha b hb => h a b ha hb⟩

theorem lookup_channelItems (hcollision : NoCollision tools spec)
    (h : url ∈ channelUrls spec) :
    (channelItems tools spec).lookup (urlRef tools url) = some url := by
  apply Dict.lookup_ofPairs_of_mem
  · intro p q hp hq hkey
    rcases List.mem_map.mp hp with ⟨a, ha, rfl⟩
    rcases List.mem_map.mp hq with ⟨b, hb, rfl⟩
    exact hcollision a b ha hb hkey
  · exact List.mem_map.mpr ⟨url, h, rfl⟩

theorem itemOk_channelItems : ((channelItems tools spec).map fun (k, v) =>
    (k, Json.str v)).all (itemOk tools) = true := by
  refine List.all_eq_true.mpr ?_
  intro item hitem
  rcases List.mem_map.mp hitem with ⟨⟨k, v⟩, hmem, rfl⟩
  rcases List.mem_map.mp (Dict.mem_ofPairs hmem) with ⟨url, _, heq⟩
  cases heq
  simp [itemOk, urlRef, tools.digest]

theorem channelUrls_of_empty (h : channelItems tools spec = []) : channelUrls spec = [] := by
  cases hurls : channelUrls spec with
  | nil => rfl
  | cons url rest =>
      have hkey : urlRef tools url ∈ Dict.keys
          ((channelUrls spec).map fun url => (urlRef tools url, url)) := by
        rw [hurls]
        exact List.mem_cons_self
      have hmem := Dict.mem_keys_ofPairs.mpr hkey
      rw [← channelItems, h] at hmem
      cases hmem

def channelFields (items : List (String × Json)) (reference : Json) : Json.Fields :=
  [("schema_version", .int 1), ("urls", .obj items), ("result_put_ref", reference)]

theorem loadTransferSecrets_fields {items : List (String × Json)} {reference : Json}
    (hok : items.all (itemOk tools) = true) :
    loadTransferSecrets tools (some (.obj (channelFields items reference))) =
      (let urls := items.filterMap fun (k, v) => v.asStr?.map (k, ·)
       match reference with
        | .null => .ok (urls, none)
        | .str reference =>
            match urls.lookup reference with
            | some url => .ok (urls, some url)
            | none =>
                .error (Runner.manifestError
                  "transfer credential channel: result_put_ref names no URL")
        | _ =>
            .error (Runner.manifestError
              "transfer credential channel: result_put_ref names no URL")) := by
  have hversion : (Json.Fields.get (channelFields items reference) "schema_version").eqInt 1 =
      true := rfl
  have hurls : (Json.Fields.get (channelFields items reference) "urls").asObj? =
      some items := rfl
  have hreference : Json.Fields.get (channelFields items reference) "result_put_ref" =
      reference := rfl
  have hobj : (Json.obj (channelFields items reference)).asObj? =
      some (channelFields items reference) := rfl
  unfold loadTransferSecrets
  simp only [hobj, hversion, hurls, hreference, hok, Bool.not_true, Bool.false_eq_true,
    if_false]

theorem resultPutUrl_mem (h : resultPutUrl spec = some url) : url ∈ channelUrls spec := by
  rw [channelUrls, h]
  simp

theorem loadTransferSecrets_file (hcollision : NoCollision tools spec) :
    loadTransferSecrets tools (some (.obj (channelFields
        ((channelItems tools spec).map fun (k, v) => (k, .str v))
        (Json.optStr ((resultPutUrl spec).map (urlRef tools)))))) =
      .ok (channelItems tools spec, resultPutUrl spec) := by
  rw [loadTransferSecrets_fields itemOk_channelItems, Json.asStr_strItems]
  cases hput : resultPutUrl spec with
  | none => rfl
  | some url =>
      have hlookup := lookup_channelItems hcollision (resultPutUrl_mem hput)
      have hstr : Json.optStr (Option.map (urlRef tools) (some url)) =
          .str (urlRef tools url) := rfl
      simp only [hstr, hlookup]

theorem loadTransferSecrets_staged (hcollision : NoCollision tools spec) :
    loadTransferSecrets tools (stagePayload tools spec).transfer =
      .ok (channelItems tools spec, resultPutUrl spec) := by
  by_cases hempty : channelItems tools spec = []
  · have hnone := channelUrls_of_empty hempty
    have hresult : resultPutUrl spec = none := by
      cases hput : resultPutUrl spec with
      | none => rfl
      | some url => simp [channelUrls, hput] at hnone
    simp only [stagePayload, hempty, if_true, hresult, loadTransferSecrets]
  · have hfile : (stagePayload tools spec).transfer = some (.obj
        [("schema_version", .int 1),
          ("urls", .obj ((channelItems tools spec).map fun (k, v) => (k, .str v))),
          ("result_put_ref", Json.optStr ((resultPutUrl spec).map (urlRef tools)))]) := by
      simp only [stagePayload, hempty, if_false]
    rw [hfile]
    exact loadTransferSecrets_file hcollision

/-!
## The rows
-/

theorem resolveTransferUrl_row {fields : Json.Fields} (hcollision : NoCollision tools spec)
    (hurl : url ∈ channelUrls spec)
    (hid : Json.Fields.get fields "url_id" = .str (tools.urlId url))
    (href : Json.Fields.get fields "url_ref" = .str (urlRef tools url)) :
    Runner.resolveTransferUrl (urlReader tools) fields (channelItems tools spec) = .ok url := by
  have hlookup := lookup_channelItems hcollision hurl
  have hidentity : (urlReader tools).urlId url = tools.urlId url := runnerUrlId_eq tools url
  unfold Runner.resolveTransferUrl
  simp only [href, hid, hlookup, hidentity, Json.asStr?, if_true]

theorem resolved_rows (urls : List (String × String)) (rows : List Json.Fields) :
    resolved tools urls (.arr (rows.map Json.obj)) =
      .ok (rows.map fun fields =>
        Runner.resolveTransferUrl (urlReader tools) fields urls) := by
  have hload : Runner.loadManifest (some "manifest.json") (.ok (.arr (rows.map Json.obj))) =
      .ok (rows.map Json.obj) := rfl
  rw [resolved, hload, Except.map, List.map_map]
  rfl

theorem resolved_stage (hcollision : NoCollision tools spec) :
    resolved tools (channelItems tools spec) (stagePayload tools spec).stage =
      .ok (spec.data.map fun item => .ok item.url) := by
  have hrows : (stagePayload tools spec).stage =
      .arr ((spec.data.map (dataRow tools)).map Json.obj) := by
    rw [List.map_map]
    rfl
  rw [hrows, resolved_rows, List.map_map]
  congr 1
  refine List.map_congr_left ?_
  intro item hitem
  have hurl : item.url ∈ channelUrls spec := by
    simp only [channelUrls, List.mem_append, List.mem_map]
    exact Or.inl (Or.inl ⟨item, hitem, rfl⟩)
  exact @resolveTransferUrl_row tools spec item.url (dataRow tools item) hcollision hurl
    rfl rfl

theorem resolved_offload (hcollision : NoCollision tools spec) :
    resolved tools (channelItems tools spec) (stagePayload tools spec).offload =
      .ok (spec.artifacts.map fun item => .ok item.url) := by
  have hrows : (stagePayload tools spec).offload =
      .arr ((spec.artifacts.map (artifactRow tools)).map Json.obj) := by
    rw [List.map_map]
    rfl
  rw [hrows, resolved_rows, List.map_map]
  congr 1
  refine List.map_congr_left ?_
  intro item hitem
  have hurl : item.url ∈ channelUrls spec := by
    simp only [channelUrls, List.mem_append, List.mem_map]
    exact Or.inl (Or.inr ⟨item, hitem, rfl⟩)
  exact @resolveTransferUrl_row tools spec item.url (artifactRow tools item) hcollision hurl
    rfl rfl

/-- The runner gets back the URLs of the spec, each row its own. -/
def RoundTrip (tools : UrlTools) (spec : JobSpec) (result : Option String) : Prop :=
  exists urls, loadTransferSecrets tools (stagePayload tools spec).transfer =
      .ok (urls, result) ∧
    resolved tools urls (stagePayload tools spec).stage =
      .ok (spec.data.map fun item => .ok item.url) ∧
    resolved tools urls (stagePayload tools spec).offload =
      .ok (spec.artifacts.map fun item => .ok item.url)

/-- Every row resolves to the URL of its entry, and the result goes to the channel's PUT
URL if that is not empty. -/
theorem transfer_round_trip (tools : UrlTools) (spec : JobSpec)
    (hcollision : NoCollision tools spec) :
    RoundTrip tools spec (resultPutUrl spec) :=
  ⟨channelItems tools spec, loadTransferSecrets_staged hcollision, resolved_stage hcollision,
    resolved_offload hcollision⟩

theorem transfer_round_trip_shared :
    RoundTrip
      (asciiTools
        [("https://h/x?sig=1",
            "80bb5a14fe3194e91d4ef2c31fed3915a2ed58419ac1e7be7d493fee5a081ec3"),
          ("https://h/y?sig=2",
            "b89203686191c1b71801ed323d6d6afe69879ed2e885bc74182e504805a31812")]
        (by decide))
      { name := "n", code := { entry := "main.py" }
        data := [{ url := "https://h/x?sig=1", dest := "a" }]
        artifacts := [{ path := "b", url := "https://h/x?sig=1" }]
        control :=
          { result := some { putUrl := "https://h/y?sig=2", getUrl := "https://h/y" } } }
      (some "https://h/y?sig=2") :=
  transfer_round_trip _ _ (by decide)

/-- An empty PUT URL is no PUT URL to the runner. -/
theorem transfer_empty_put : exists spec : JobSpec, forall tools, NoCollision tools spec ∧
    ¬RoundTrip tools spec (spec.control.result.map ControlChannel.putUrl) := by
  refine ⟨{ name := "n", code := { entry := "main.py" }
            control := { result := some { putUrl := "", getUrl := "https://h/y" } } }, ?_⟩
  intro tools
  constructor
  · intro a b ha
    cases ha
  · rintro ⟨urls, hload, _⟩
    cases hload

end TransferChannel
end Job
end MightyColab
