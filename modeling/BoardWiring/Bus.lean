import BoardWiring.Board.Basic

/-!
# The bus

The statements that construct the I2C bus of a board, and the expander on it.

* `Bus.plan` reads the settings of a bus that a family supports;
* `Bus.build` gives the statements: none for a board without a bus, and a stand-in on families
  without support;
* `Bus.claimedPins` are the pins that the bus takes away from the keys.
-/

namespace BoardWiring

namespace Bus

/-- The pins and the frequency of a bus. -/
structure Plan where
  /-- Data pin. -/
  sda : Pin
  /-- Clock pin. -/
  scl : Pin
  /-- Frequency in kHz. -/
  frequency : Int

/-- Families whose bus can be constructed. -/
def isSupported : Family → Bool
  | .esp32 => false
  | _ => true

/-- The frequency of a bus that is not given one. -/
def defaultFrequency : Int := 100

/-- The frequencies that the nRF52 can run at. -/
def fixedFrequencies : List Int := [100, 250, 400]

/-- The frequency of a bus: one of the fixed ones on the nRF52, any positive one elsewhere. -/
def frequency (family : Family) : Value → Except ConfigError Int
  | .null => .ok defaultFrequency
  | .int f =>
    if family = .nrf52 then
      if f ∈ fixedFrequencies then .ok f
      else .error (.invalidFrequency (.int f) (some family) (fixedFrequencies.map Value.int))
    else if f ≤ 0 then .error (.invalidFrequency (.int f) (some family) [])
    else .ok f
  | v => .error (.invalidFrequency v (some family) [])

/-- Reads the settings of a bus. -/
def plan (family : Family) (s : BusSettings) : Except Failure Plan :=
  if !s.sda.holds then .error (.config (.invalid "I2C SDA pin not set"))
  else if !s.scl.holds then .error (.config (.invalid "I2C SCL pin not set"))
  else do
    let sda ← Pin.readOnChip family s.sda
    let scl ← Pin.readOnChip family s.scl
    match frequency family s.frequency with
    | .ok f => pure ⟨sda, scl, f⟩
    | .error e => .error (if e.raw.isWritable then .config e else .longInteger)

/-! ### Statements -/

/-- The frequency of a bus stands in its statements, so it must be short enough to be written. -/
def checkWritable (p : Plan) : Except Failure Unit :=
  if Digits.isWritable p.frequency then .ok () else .error .longInteger

/-- The statements that construct the bus of a family. -/
def construct (family : Family) (p : Plan) : List String :=
  match family with
  | .stm32 =>
    ["let mut i2c = ::embassy_stm32::i2c::I2c::new_blocking(",
      "    p.I2C1,",
      "    p." ++ p.scl.text ++ ",",
      "    p." ++ p.sda.text ++ ",",
      "    ::embassy_stm32::time::Hertz(" ++ Digits.signed p.frequency ++ " * 1000),",
      "    ::embassy_stm32::i2c::Config::default(),",
      ");"]
  | .nrf52 =>
    ["let mut i2c = \x7b",
      "    let mut config = ::embassy_nrf::twim::Config::default();",
      "    config.frequency = ::embassy_nrf::twim::Frequency::K" ++ Digits.signed p.frequency ++
        ";",
      "    ::defmt::info!(\"I2C initialized\");",
      "    ::embassy_nrf::twim::Twim::new(p.TWISPI0, Irqs, p." ++ p.sda.text ++ ", p." ++
        p.scl.text ++ ", config)",
      "\x7d;",
      "::embassy_nrf::interrupt::SPIM0_SPIS0_TWIM0_TWIS0_SPI0_TWI0" ++
        ".set_priority(::embassy_nrf::interrupt::Priority::P2);"]
  | .rp2040 =>
    ["let mut i2c = \x7b",
      "    let mut config = ::embassy_rp::i2c::Config::default();",
      "    config.frequency = " ++ Digits.signed p.frequency ++ " * 1000;",
      "    ::embassy_rp::i2c::I2c::new_blocking(p.I2C0, p." ++ p.scl.text ++ ", p." ++
        p.sda.text ++ ", config)",
      "\x7d;"]
  | .esp32 => []

/-- What stands for the bus on a family without support. -/
def standIn (family : Family) : Fragment :=
  ⟨["// I2C is not supported on " ++ family.name, "let i2c: Option<()> = None;"], ["i2c"], [],
    true⟩

/-- The statement that makes the bus shared. -/
def sharing : Fragment := Fragment.ofLines [Expander.sharedBusStatement] [Expander.sharedBus]

/-- The statements that construct the expander. -/
def expander (address : Int) : Except ConfigError Fragment :=
  match Expander.bringUp address with
  | .ok lines => .ok (Fragment.ofLines lines ["mcp23x17", "ge"])
  | .error e => .error e

/-- The statements for a bus that a family supports. -/
def buildSupported (family : Family) (s : BusSettings) (shared : Bool) :
    Except Failure Fragment := do
  let p ← plan family s
  checkWritable p
  let constructed := Fragment.ofLines (construct family p) ["i2c"]
  if s.expander then
    match expander s.address with
    | .ok f => pure (constructed ++ sharing ++ f)
    | .error e => .error (.config e)
  else if shared then pure (constructed ++ sharing)
  else pure constructed

/-- The statements for the bus of a board.  The bus is made shared if there is an expander on it,
or if `shared` asks for it. -/
def build (family : Family) (s : BusSettings) (shared : Bool) : Except Failure Fragment :=
  if !s.enabled then .ok .empty
  else if isSupported family then buildSupported family s shared
  else if s.expander then .error (.config (.expanderWithoutBus family))
  else .ok (standIn family)

/-- The statements of the bus are those of one that works. -/
def isUsable (bus : Fragment) : Bool := !(bus.isEmpty || bus.unsupported)

/-- The pins that the bus takes. -/
def claimedPins (family : Family) (s : BusSettings) (bus : Fragment) :
    Except Failure (List Pin) :=
  if isUsable bus then do
    let sda ← Pin.readOnChip family s.sda
    let scl ← Pin.readOnChip family s.scl
    pure [sda, scl]
  else .ok []

end Bus

end BoardWiring
