import JrtController.DeploymentRunProofs

/-! # The device mapping of an app

    With every app `jrtc-ctl load` sends the devices of the deployment: a map from the id of
    a device to its address.  It is made from `GetDeviceMap`, which goes the other way, from
    the address to the id.  `validate` asks that the ids are different; nobody asks this of
    the addresses, and a device without one gets the default.

    * `mem_getDeviceMap` — the map by address, for different addresses;
    * `mapsDevices_iff` — the mapping has every device, and nothing else, iff the addresses
      are different. -/

namespace JrtcDeviceMapping

open Loops IterMaps JrtcController JrtcLoadRequest JrtcDeployment JrtcDeploymentRun

/-- The address of a device: `fmt.Sprintf("%s:%d", d.IP, d.Port)`. -/
def address (d : JBPFDevice) : String := d.ip ++ ":" ++ toString d.port.toNat

/-- A key of the mapping: `fmt.Sprintf("%d", id)`. -/
def idText (id : BitVec 8) : String := toString id.toNat

/-- `GetHostNameFromDeviceID`. -/
def getHostNameFromDeviceID (c : JBPFConfig) (id : BitVec 8) : Except String String :=
  match c.devices.find? fun d => d.id = id with
  | some d => .ok (address d)
  | none => .error ("device with ID " ++ toString id.toNat ++ " not found")

/-- The mapping has the id of every device with the address of this id, and nothing else. -/
def MapsDevices (c : JBPFConfig) (m : IterMap String String) : Prop :=
  ∀ k v, m.get k = some v ↔
    ∃ d ∈ c.devices, k = idText d.id ∧ getHostNameFromDeviceID c d.id = .ok v

/-! ## An accepted configuration -/

theorem idText_injective : Function.Injective idText := by
  intro id id' h
  have hdigits : Nat.toDigits 10 id.toNat = Nat.toDigits 10 id'.toNat := by
    rw [← Nat.toList_repr, ← Nat.toList_repr]
    exact congrArg String.toList h
  refine BitVec.eq_of_toNat_eq ?_
  rw [← @Nat.ofDigitChars_ten_toDigits id.toNat, hdigits, Nat.ofDigitChars_ten_toDigits]

/-- `FromYamls` has checked what it returns. -/
theorem fromYamls_validate {host : DeployHost} {files : List String} {cfg : CLIConfig}
    (h : fromYamls host files = .ok cfg) : cfg.jbpf.validate = .ok () := by
  cases files with
  | nil => cases h
  | cons file files =>
      obtain ⟨first, -, h⟩ := bind_eq_ok_iff.mp h
      obtain ⟨merged, -, h⟩ := bind_eq_ok_iff.mp h
      obtain ⟨expanded, -, h⟩ := bind_eq_ok_iff.mp h
      obtain ⟨out, -, h⟩ := bind_eq_ok_iff.mp h
      obtain ⟨u, hvalidate, h⟩ := bind_eq_ok_iff.mp h
      cases h
      cases hout : cfg.jbpf.validate with
      | ok u => rfl
      | error e =>
          rw [hout] at hvalidate
          cases hvalidate

section

variable {c : JBPFConfig} (hids : (c.devices.map JBPFDevice.id).Nodup)

include hids

/-- A device is found by its id. -/
theorem getHostNameFromDeviceID_of_mem {d : JBPFDevice} (hd : d ∈ c.devices) :
    getHostNameFromDeviceID c d.id = .ok (address d) := by
  have hfind : c.devices.find? (fun x => x.id = d.id) = some d := by
    cases hx : c.devices.find? (fun x => x.id = d.id) with
    | none => exact absurd (List.find?_eq_none.mp hx d hd) (by simp)
    | some x =>
        have hid : x.id = d.id := by simpa using List.find?_some hx
        rw [List.inj_on_of_nodup_map hids (List.mem_of_find?_eq_some hx) hd hid]
  rw [getHostNameFromDeviceID, hfind]

theorem mapsDevices_eq {m : IterMap String String} : MapsDevices c m
    ↔ ∀ k v, (k, v) ∈ m.entries ↔ ∃ d ∈ c.devices, (k, v) = (idText d.id, address d) := by
  have hname : ∀ k v, (∃ d ∈ c.devices, k = idText d.id
        ∧ getHostNameFromDeviceID c d.id = .ok v)
      ↔ ∃ d ∈ c.devices, (k, v) = (idText d.id, address d) := by
    intro k v
    refine exists_congr fun d => and_congr_right fun hd => ?_
    rw [getHostNameFromDeviceID_of_mem hids hd, Except.ok.injEq, Prod.mk.injEq,
      eq_comm (a := v)]
  simp only [MapsDevices, IterMap.get_eq_some_iff, hname]

end

/-! ## The two maps -/

/-- An entry of the map by address is of a device. -/
theorem exists_device_of_mem {c : JBPFConfig} {x : String × BitVec 8}
    (h : x ∈ (getDeviceMap c).entries) : ∃ d ∈ c.devices, x = (address d, d.id) :=
  (IterMap.mem_of_mem_fill h).resolve_left List.not_mem_nil

/-- **THE MAP BY ADDRESS** has every device, if the addresses are different. -/
theorem mem_getDeviceMap {c : JBPFConfig} (haddr : (c.devices.map address).Nodup)
    {x : String × BitVec 8} :
    x ∈ (getDeviceMap c).entries ↔ ∃ d ∈ c.devices, x = (address d, d.id) :=
  IterMap.mem_fill_iff haddr

/-- An entry of the mapping is one of the map by address, the other way round. -/
theorem exists_mem_of_mem_populateDevices {l : List (String × BitVec 8)} {x : String × String}
    (h : x ∈ (populateDevices l).entries) : ∃ y ∈ l, x = (idText y.2, y.1) :=
  (IterMap.mem_of_mem_fill h).resolve_left List.not_mem_nil

/-- The ids in the map by address are different. -/
theorem ids_nodup {c : JBPFConfig} (hids : (c.devices.map JBPFDevice.id).Nodup)
    {order : IterMap String (BitVec 8)} (horder : SameMap (getDeviceMap c) order) :
    (order.entries.map fun y => idText y.2).Nodup := by
  refine List.Nodup.map_on ?_ order.nodup.of_map
  intro y hy y' hy' hid
  obtain ⟨d, hd, rfl⟩ := exists_device_of_mem (horder.mem_iff.mpr hy)
  obtain ⟨d', hd', rfl⟩ := exists_device_of_mem (horder.mem_iff.mpr hy')
  rw [List.inj_on_of_nodup_map hids hd hd' (idText_injective hid)]

/-- **THE MAPPING IS COMPLETE**, whatever the order of the iteration, iff no two devices have
    the same address. -/
theorem mapsDevices_iff {host : DeployHost} {files : List String} {cfg : CLIConfig}
    (haccepted : fromYamls host files = .ok cfg) {order : IterMap String (BitVec 8)}
    (horder : SameMap (getDeviceMap cfg.jbpf) order) (loader : String × Image) (a : App) :
    MapsDevices cfg.jbpf (loadRequest loader order.entries a).deviceMapping
      ↔ (cfg.jbpf.devices.map address).Nodup := by
  have hids := ((validate_eq_ok_iff _).mp (fromYamls_validate haccepted)).1
  rw [mapsDevices_eq hids]
  show (∀ k v, (k, v) ∈ (populateDevices order.entries).entries ↔ _) ↔ _
  constructor
  · intro h
    refine List.Nodup.map_on ?_ hids.of_map
    intro d hd d' hd' haddr
    -- both ids stand under one key of the map by address
    obtain ⟨y, hy, heq⟩ := exists_mem_of_mem_populateDevices ((h _ _).mpr ⟨d, hd, rfl⟩)
    obtain ⟨y', hy', heq'⟩ := exists_mem_of_mem_populateDevices ((h _ _).mpr ⟨d', hd', rfl⟩)
    obtain ⟨hid, hy1⟩ := Prod.mk.inj heq
    obtain ⟨hid', hy1'⟩ := Prod.mk.inj heq'
    have hyy : y = y' := IterMap.entry_unique hy hy' (hy1.symm.trans (haddr.trans hy1'))
    refine List.inj_on_of_nodup_map hids hd hd' (idText_injective ?_)
    rw [hid, hid', hyy]
  · intro haddr k v
    have hfill : (k, v) ∈ (populateDevices order.entries).entries
        ↔ ∃ y ∈ order.entries, (k, v) = (idText y.2, y.1) :=
      IterMap.mem_fill_iff (ids_nodup hids horder)
    rw [hfill]
    constructor
    · rintro ⟨y, hy, heq⟩
      obtain ⟨d, hd, rfl⟩ := (mem_getDeviceMap haddr).mp (horder.mem_iff.mpr hy)
      exact ⟨d, hd, heq⟩
    · rintro ⟨d, hd, heq⟩
      exact ⟨(address d, d.id),
        horder.mem_iff.mp ((mem_getDeviceMap haddr).mpr ⟨d, hd, rfl⟩), heq⟩

/-- A file with two devices and a codelet set for each. -/
def twoDevices (port port' : BitVec 16) : RawConfig :=
  { sampleDeployment with
    jbpf := some ⟨[⟨1, "", none, port⟩, ⟨2, "", none, port'⟩],
      [⟨"codelets.yaml", 1⟩, ⟨"codelets.yaml", 2⟩]⟩ }

/-- A machine on which every file is this one. -/
def deviceMachine (port port' : BitVec 16) : DeployHost :=
  { sampleMachine with unmarshalConfig := fun _ => .ok (twoDevices port port') }

/-- What `FromYamls` makes of it. -/
def twoDevicesConfig (port port' : BitVec 16) : CLIConfig where
  apps := []
  decoders := []
  jbpf := ⟨[⟨1, defaultIP, none, port⟩, ⟨2, defaultIP, none, port'⟩],
    [⟨"codelets.yaml", 1⟩, ⟨"codelets.yaml", 2⟩]⟩
  name := "app"

theorem fromYamls_deviceMachine (port port' : BitVec 16) :
    fromYamls (deviceMachine port port') ["app.yaml"] = .ok (twoDevicesConfig port port') := rfl

/-- The request for an app beside the devices. -/
def deviceRequest (port port' : BitVec 16) : JrtcAppLoadRequest :=
  loadRequest ("", ⟨0, false⟩) (getDeviceMap (twoDevicesConfig port port').jbpf).entries
    (plainApp 0 0 0)

/-- Two devices on different ports. -/
theorem two_ports_mapped :
    fromYamls (deviceMachine 8080 8081) ["app.yaml"] = .ok (twoDevicesConfig 8080 8081)
      ∧ MapsDevices (twoDevicesConfig 8080 8081).jbpf (deviceRequest 8080 8081).deviceMapping :=
  ⟨rfl, (mapsDevices_iff (fromYamls_deviceMachine 8080 8081) (List.Perm.refl _) _ _).mpr
    (by decide)⟩

/-- Both devices get the default address and have one port: the mapping has no device 1. -/
theorem same_address_not_mapped :
    fromYamls (deviceMachine 8080 8080) ["app.yaml"] = .ok (twoDevicesConfig 8080 8080)
      ∧ getHostNameFromDeviceID (twoDevicesConfig 8080 8080).jbpf 1 = .ok "127.0.0.1:8080"
      ∧ (deviceRequest 8080 8080).deviceMapping.get "1" = none := by
  refine ⟨rfl, ?_, ?_⟩
  · decide
  · decide

end JrtcDeviceMapping
