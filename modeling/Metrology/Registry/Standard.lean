import Metrology.Registry

/-!
The standard registry: the units and prefixes in general use. A unit is given with its aliases, the
written one first, the factor by which it reduces to base atoms, its kind, and those base atoms.
-/

namespace Metrology.Standard

def meter : Atom := "<meter>"
def kilogram : Atom := "<kilogram>"
def second : Atom := "<second>"
def mole : Atom := "<mole>"
def ampere : Atom := "<ampere>"
def radian : Atom := "<radian>"
def kelvin : Atom := "<kelvin>"
def tempK : Atom := "<temp-K>"
def byte : Atom := "<byte>"
def dollar : Atom := "<dollar>"
def candela : Atom := "<candela>"
def each : Atom := "<each>"
def steradian : Atom := "<steradian>"
def decibel : Atom := "<decibel>"

/-- The atoms that all units reduce to. Kelvin as a difference of temperatures and as an absolute
temperature is two of them. -/
def baseUnits : List Atom :=
  [meter, kilogram, second, mole, ampere, radian, kelvin, tempK, byte, dollar, candela, each,
    steradian, decibel]

def squareMeter : List Atom := [meter, meter]
def cubicMeter : List Atom := [meter, meter, meter]
def squareSecond : List Atom := [second, second]
def cubicSecond : List Atom := [second, second, second]

/-- The ratio of a circle to its diameter. -/
def pi : Float := 3.141592653589793

/-- A row of the table of prefixes. -/
def scaled (atom : Atom) (aliases : List String) (factor : Float) : Entry Float :=
  ⟨atom, aliases, .real factor⟩

/-- A row of the table of units. -/
def unit (atom : Atom) (aliases : List String) (factor : Float) (kind : String)
    (numerator denominator : List Atom) : UnitEntry Float :=
  ⟨⟨atom, aliases, .real factor⟩, kind, numerator, denominator⟩

/-- Decimal and binary prefixes. The micro sign and the Greek mu remain two letters when composed.
-/
def prefixes : List (Entry Float) :=
  [scaled "<googol>" ["googol"] 1e100,
    scaled "<kibi>" ["Ki", "Kibi", "kibi"] 1024.0,
    scaled "<mebi>" ["Mi", "Mebi", "mebi"] 1048576.0,
    scaled "<gibi>" ["Gi", "Gibi", "gibi"] 1073741824.0,
    scaled "<tebi>" ["Ti", "Tebi", "tebi"] 1099511627776.0,
    scaled "<pebi>" ["Pi", "Pebi", "pebi"] 1125899906842624.0,
    scaled "<exi>" ["Ei", "Exi", "exi"] 1152921504606846976.0,
    scaled "<zebi>" ["Zi", "Zebi", "zebi"] 1180591620717411303424.0,
    scaled "<yebi>" ["Yi", "Yebi", "yebi"] 1208925819614629174706176.0,
    scaled "<yotta>" ["Y", "Yotta", "yotta"] 1e24,
    scaled "<zetta>" ["Z", "Zetta", "zetta"] 1e21,
    scaled "<exa>" ["E", "Exa", "exa"] 1e18,
    scaled "<peta>" ["P", "Peta", "peta"] 1e15,
    scaled "<tera>" ["T", "Tera", "tera"] 1e12,
    scaled "<giga>" ["G", "Giga", "giga"] 1e9,
    scaled "<mega>" ["M", "Mega", "mega"] 1e6,
    scaled "<kilo>" ["k", "kilo"] 1e3,
    scaled "<hecto>" ["h", "Hecto", "hecto"] 1e2,
    scaled "<deca>" ["da", "Deca", "deca", "deka"] 1e1,
    scaled "<deci>" ["d", "Deci", "deci"] 1e-1,
    scaled "<centi>" ["c", "Centi", "centi"] 1e-2,
    scaled "<milli>" ["m", "Milli", "milli"] 1e-3,
    scaled "<micro>" ["u", "μ", "µ", "Micro", "mc", "micro"] 1e-6,
    scaled "<nano>" ["n", "Nano", "nano"] 1e-9,
    scaled "<pico>" ["p", "Pico", "pico"] 1e-12,
    scaled "<femto>" ["f", "Femto", "femto"] 1e-15,
    scaled "<atto>" ["a", "Atto", "atto"] 1e-18,
    scaled "<zepto>" ["z", "Zepto", "zepto"] 1e-21,
    scaled "<yocto>" ["y", "Yocto", "yocto"] 1e-24]

/-- The number one. -/
def unities : List (UnitEntry Float) :=
  [unit unity ["1", unity] 1.0 "" [] []]

/-- Units of length. -/
def lengths : List (UnitEntry Float) :=
  [unit meter ["m", "meter", "meters", "metre", "metres"] 1.0 "length" [meter] [],
    unit "<inch>" ["in", "inch", "inches", "\""] 0.0254 "length" [meter] [],
    unit "<foot>" ["ft", "foot", "feet", "'"] 0.3048 "length" [meter] [],
    unit "<yard>" ["yd", "yard", "yards"] 0.9144 "length" [meter] [],
    unit "<mile>" ["mi", "mile", "miles"] 1609.344 "length" [meter] [],
    unit "<naut-mile>" ["nmi", "naut-mile"] 1852.0 "length" [meter] [],
    unit "<league>" ["league", "leagues"] 4828.0 "length" [meter] [],
    unit "<furlong>" ["furlong", "furlongs"] 201.2 "length" [meter] [],
    unit "<rod>" ["rd", "rod", "rods"] 5.029 "length" [meter] [],
    unit "<mil>" ["mil", "mils"] 0.0000254 "length" [meter] [],
    unit "<angstrom>" ["ang", "angstrom", "angstroms"] 1e-10 "length" [meter] [],
    unit "<fathom>" ["fathom", "fathoms"] 1.829 "length" [meter] [],
    unit "<pica>" ["pica", "picas"] 0.00423333333 "length" [meter] [],
    unit "<point>" ["point", "points"] 0.000352777778 "length" [meter] [],
    unit "<redshift>" ["red-shift", "redshift"] 1.302773e26 "length" [meter] [],
    unit "<AU>" ["AU", "astronomical-unit"] 149597900000.0 "length" [meter] [],
    unit "<light-second>" ["ls", "light-second"] 299792500.0 "length" [meter] [],
    unit "<light-minute>" ["lmin", "light-minute"] 17987550000.0 "length" [meter] [],
    unit "<light-year>" ["ly", "light-year"] 9460528000000000.0 "length" [meter] [],
    unit "<parsec>" ["pc", "parsec", "parsecs"] 30856780000000000.0 "length" [meter] [],
    unit "<datamile>" ["DM", "datamile"] 1828.8 "length" [meter] []]

/-- Units of mass. -/
def masses : List (UnitEntry Float) :=
  [unit kilogram ["kg", "kilogram", "kilograms"] 1.0 "mass" [kilogram] [],
    unit "<AMU>" ["AMU", "amu"] 1.660538921e-27 "mass" [kilogram] [],
    unit "<dalton>" ["Da", "Dalton", "Daltons", "dalton", "daltons"] 1.660538921e-27 "mass"
      [kilogram] [],
    unit "<slug>" ["slug", "slugs"] 14.5939029 "mass" [kilogram] [],
    unit "<short-ton>" ["tn", "ton", "short-ton"] 907.18474 "mass" [kilogram] [],
    unit "<metric-ton>" ["t", "tonne", "metric-ton"] 1000.0 "mass" [kilogram] [],
    unit "<carat>" ["ct", "carat", "carats"] 0.0002 "mass" [kilogram] [],
    unit "<pound>" ["lbs", "lb", "pound", "pounds", "#"] 0.45359237 "mass" [kilogram] [],
    unit "<ounce>" ["oz", "ounce", "ounces"] 0.0283495231 "mass" [kilogram] [],
    unit "<gram>" ["g", "gram", "grams", "gramme", "grammes"] 1e-3 "mass" [kilogram] [],
    unit "<grain>" ["grain", "grains", "gr"] 6.479891e-5 "mass" [kilogram] [],
    unit "<dram>" ["dram", "drams", "dr"] 0.0017718452 "mass" [kilogram] [],
    unit "<stone>" ["stone", "stones", "st"] 6.35029318 "mass" [kilogram] []]

/-- Units of area. -/
def areas : List (UnitEntry Float) :=
  [unit "<hectare>" ["hectare"] 10000.0 "area" squareMeter [],
    unit "<acre>" ["acre", "acres"] 4046.85642 "area" squareMeter [],
    unit "<sqft>" ["sqft"] 0.09290304 "area" squareMeter []]

/-- Units of volume. -/
def volumes : List (UnitEntry Float) :=
  [unit "<liter>" ["l", "L", "liter", "liters", "litre", "litres"] 0.001 "volume" cubicMeter [],
    unit "<gallon>" ["gal", "gallon", "gallons"] 0.0037854118 "volume" cubicMeter [],
    unit "<gallon-imp>" ["galimp", "gallon-imp", "gallons-imp"] 0.0045460900 "volume" cubicMeter
      [],
    unit "<quart>" ["qt", "quart", "quarts"] 0.00094635295 "volume" cubicMeter [],
    unit "<pint>" ["pt", "pint", "pints"] 0.000473176475 "volume" cubicMeter [],
    unit "<pint-imp>" ["pintimp", "pint-imp", "pints-imp"] 5.6826125e-4 "volume" cubicMeter [],
    unit "<cup>" ["cu", "cup", "cups"] 0.000236588238 "volume" cubicMeter [],
    unit "<fluid-ounce>" ["floz", "fluid-ounce", "fluid-ounces"] 2.95735297e-5 "volume" cubicMeter
      [],
    unit "<tablespoon>" ["tb", "tbsp", "tbs", "tablespoon", "tablespoons"] 1.47867648e-5 "volume"
      cubicMeter [],
    unit "<teaspoon>" ["tsp", "teaspoon", "teaspoons"] 4.92892161e-6 "volume" cubicMeter [],
    unit "<bushel>" ["bu", "bsh", "bushel", "bushels"] 0.035239072 "volume" cubicMeter [],
    unit "<oilbarrel>" ["bbl", "oilbarrel", "oilbarrels", "oil-barrel", "oil-barrels"]
      0.158987294928 "volume" cubicMeter [],
    unit "<beerbarrel>"
      ["bl", "bl-us", "beerbarrel", "beerbarrels", "beer-barrel", "beer-barrels"] 0.1173477658
      "volume" cubicMeter [],
    unit "<beerbarrel-imp>"
      ["blimp", "bl-imp", "beerbarrel-imp", "beerbarrels-imp", "beer-barrel-imp",
        "beer-barrels-imp"]
      0.16365924 "volume" cubicMeter []]

/-- Units of speed. -/
def speeds : List (UnitEntry Float) :=
  [unit "<kph>" ["kph"] 0.277777778 "speed" [meter] [second],
    unit "<mph>" ["mph"] 0.44704 "speed" [meter] [second],
    unit "<knot>" ["kt", "kn", "kts", "knot", "knots"] 0.514444444 "speed" [meter] [second],
    unit "<fps>" ["fps"] 0.3048 "speed" [meter] [second]]

/-- Units of acceleration. -/
def accelerations : List (UnitEntry Float) :=
  [unit "<gee>" ["gee"] 9.80665 "acceleration" [meter] squareSecond,
    unit "<Gal>" ["Gal"] 1e-2 "acceleration" [meter] squareSecond]

/-- Units of differences of temperature. -/
def degrees : List (UnitEntry Float) :=
  [unit kelvin ["K", "degK", "kelvin", "Kelvin"] 1.0 "temperature" [kelvin] [],
    unit "<celsius>" ["°C", "degC", "celsius", "Celsius", "centigrade", "Centigrade", "ºC"] 1.0
      "temperature" [kelvin] [],
    unit "<fahrenheit>" ["°F", "degF", "fahrenheit", "Fahrenheit", "ºF"] (5.0 / 9.0) "temperature"
      [kelvin] [],
    unit "<rankine>" ["°R", "degR", "rankine", "Rankine"] (5.0 / 9.0) "temperature" [kelvin] []]

/-- Points on scales of absolute temperature. -/
def temperatures : List (UnitEntry Float) :=
  [unit tempK ["tempK", "temp-K"] 1.0 "temperature" [tempK] [],
    unit "<temp-C>" ["tempC", "temp-C"] 1.0 "temperature" [tempK] [],
    unit "<temp-F>" ["tempF", "temp-F"] (5.0 / 9.0) "temperature" [tempK] [],
    unit "<temp-R>" ["tempR", "temp-R"] (5.0 / 9.0) "temperature" [tempK] []]

/-- Units of time. -/
def times : List (UnitEntry Float) :=
  [unit second ["s", "sec", "secs", "second", "seconds"] 1.0 "time" [second] [],
    unit "<minute>" ["min", "mins", "minute", "minutes"] 60.0 "time" [second] [],
    unit "<hour>" ["h", "hr", "hrs", "hour", "hours"] 3600.0 "time" [second] [],
    unit "<day>" ["d", "day", "days"] (3600.0 * 24.0) "time" [second] [],
    unit "<week>" ["wk", "week", "weeks"] (7.0 * 3600.0 * 24.0) "time" [second] [],
    unit "<fortnight>" ["fortnight", "fortnights"] 1209600.0 "time" [second] [],
    unit "<year>" ["y", "yr", "year", "years", "annum"] 31556926.0 "time" [second] [],
    unit "<decade>" ["decade", "decades"] 315569260.0 "time" [second] [],
    unit "<century>" ["century", "centuries"] 3155692600.0 "time" [second] []]

/-- Units of pressure. -/
def pressures : List (UnitEntry Float) :=
  [unit "<pascal>" ["Pa", "pascal", "Pascal"] 1.0 "pressure" [kilogram] [meter, second, second],
    unit "<bar>" ["bar", "bars"] 100000.0 "pressure" [kilogram] [meter, second, second],
    unit "<mmHg>" ["mmHg"] 133.322368 "pressure" [kilogram] [meter, second, second],
    unit "<inHg>" ["inHg"] 3386.3881472 "pressure" [kilogram] [meter, second, second],
    unit "<torr>" ["torr"] 133.322368 "pressure" [kilogram] [meter, second, second],
    unit "<atm>" ["atm", "ATM", "atmosphere", "atmospheres"] 101325.0 "pressure" [kilogram]
      [meter, second, second],
    unit "<psi>" ["psi"] 6894.76 "pressure" [kilogram] [meter, second, second],
    unit "<cmh2o>" ["cmH2O", "cmh2o"] 98.0638 "pressure" [kilogram] [meter, second, second],
    unit "<inh2o>" ["inH2O", "inh2o"] 249.082052 "pressure" [kilogram] [meter, second, second]]

/-- Units of viscosity, dynamic and kinematic. -/
def viscosities : List (UnitEntry Float) :=
  [unit "<poise>" ["P", "poise"] 0.1 "viscosity" [kilogram] [meter, second],
    unit "<stokes>" ["St", "stokes"] 1e-4 "viscosity" squareMeter [second]]

/-- Units of amount of substance. -/
def substances : List (UnitEntry Float) :=
  [unit mole ["mol", "mole"] 1.0 "substance" [mole] []]

/-- Units of concentration. -/
def concentrations : List (UnitEntry Float) :=
  [unit "<molar>" ["M", "molar"] 1000.0 "molar_concentration" [mole] cubicMeter,
    unit "<wtpercent>" ["wt%", "wtpercent"] 10.0 "molar_concentration" [kilogram] cubicMeter]

/-- Units of catalytic activity. -/
def activities : List (UnitEntry Float) :=
  [unit "<katal>" ["kat", "katal", "Katal"] 1.0 "activity" [mole] [second],
    unit "<unit>" ["U", "enzUnit", "unit"] 16.667e-16 "activity" [mole] [second]]

/-- Units of capacitance. -/
def capacitances : List (UnitEntry Float) :=
  [unit "<farad>" ["F", "farad", "Farad"] 1.0 "capacitance"
      [second, second, second, second, ampere, ampere] [meter, meter, kilogram]]

/-- Units of electric charge. -/
def charges : List (UnitEntry Float) :=
  [unit "<coulomb>" ["C", "coulomb", "Coulomb"] 1.0 "charge" [ampere, second] [],
    unit "<Ah>" ["Ah"] 3600.0 "charge" [ampere, second] [],
    unit "<elementary-charge>" ["e"] 1.602176634e-19 "charge" [ampere, second] []]

/-- Units of electric current. -/
def currents : List (UnitEntry Float) :=
  [unit ampere ["A", "Ampere", "ampere", "amp", "amps"] 1.0 "current" [ampere] []]

/-- Units of conductance. -/
def conductances : List (UnitEntry Float) :=
  [unit "<siemens>" ["S", "Siemens", "siemens"] 1.0 "conductance"
      [second, second, second, ampere, ampere] [kilogram, meter, meter]]

/-- Units of inductance. -/
def inductances : List (UnitEntry Float) :=
  [unit "<henry>" ["H", "Henry", "henry"] 1.0 "inductance" (squareMeter ++ [kilogram])
      [second, second, ampere, ampere]]

/-- Units of electric potential. -/
def potentials : List (UnitEntry Float) :=
  [unit "<volt>" ["V", "Volt", "volt", "volts"] 1.0 "potential" (squareMeter ++ [kilogram])
      [second, second, second, ampere]]

/-- Units of resistance. -/
def resistances : List (UnitEntry Float) :=
  [unit "<ohm>" ["Ω", "Ohm", "ohm"] 1.0 "resistance" (squareMeter ++ [kilogram])
      [second, second, second, ampere, ampere]]

/-- Units of magnetic flux, flux density and field strength. -/
def magnetisms : List (UnitEntry Float) :=
  [unit "<weber>" ["Wb", "weber", "webers"] 1.0 "magnetism" (squareMeter ++ [kilogram])
      [second, second, ampere],
    unit "<tesla>" ["T", "tesla", "teslas"] 1.0 "magnetism" [kilogram] [second, second, ampere],
    unit "<gauss>" ["G", "gauss"] 1e-4 "magnetism" [kilogram] [second, second, ampere],
    unit "<maxwell>" ["Mx", "maxwell", "maxwells"] 1e-8 "magnetism" (squareMeter ++ [kilogram])
      [second, second, ampere],
    unit "<oersted>" ["Oe", "oersted", "oersteds"] (250.0 / pi) "magnetism" [ampere] [meter]]

/-- Units of energy. -/
def energies : List (UnitEntry Float) :=
  [unit "<joule>" ["J", "joule", "Joule", "joules", "Joules"] 1.0 "energy"
      (squareMeter ++ [kilogram]) squareSecond,
    unit "<erg>" ["erg", "ergs"] 1e-7 "energy" (squareMeter ++ [kilogram]) squareSecond,
    unit "<btu>" ["BTU", "btu", "BTUs"] 1055.056 "energy" (squareMeter ++ [kilogram])
      squareSecond,
    unit "<calorie>" ["cal", "calorie", "calories"] 4.18400 "energy" (squareMeter ++ [kilogram])
      squareSecond,
    unit "<Calorie>" ["Cal", "Calorie", "Calories"] 4184.00 "energy" (squareMeter ++ [kilogram])
      squareSecond,
    unit "<therm-US>" ["th", "therm", "therms", "Therm", "therm-US"] 105480400.0 "energy"
      (squareMeter ++ [kilogram]) squareSecond,
    unit "<Wh>" ["Wh"] 3600.0 "energy" (squareMeter ++ [kilogram]) squareSecond,
    unit "<electronvolt>" ["eV", "electronvolt", "electronvolts"] 1.602176634e-19 "energy"
      (squareMeter ++ [kilogram]) squareSecond]

/-- Units of force. -/
def forces : List (UnitEntry Float) :=
  [unit "<newton>" ["N", "Newton", "newton"] 1.0 "force" [kilogram, meter] squareSecond,
    unit "<dyne>" ["dyn", "dyne"] 1e-5 "force" [kilogram, meter] squareSecond,
    unit "<pound-force>" ["lbf", "pound-force"] 4.448222 "force" [kilogram, meter] squareSecond]

/-- Units of frequency. -/
def frequencies : List (UnitEntry Float) :=
  [unit "<hertz>" ["Hz", "hertz", "Hertz"] 1.0 "frequency" [unity] [second]]

/-- Units of plane and solid angle. -/
def angles : List (UnitEntry Float) :=
  [unit radian ["rad", "radian", "radians"] 1.0 "angle" [radian] [],
    unit "<degree>" ["deg", "degree", "degrees"] (pi / 180.0) "angle" [radian] [],
    unit "<arcminute>" ["arcmin", "arcminute", "arcminutes"] (pi / 10800.0) "angle" [radian] [],
    unit "<arcsecond>" ["arcsec", "arcsecond", "arcseconds"] (pi / 648000.0) "angle" [radian] [],
    unit "<gradian>" ["gon", "grad", "gradian", "grads"] (pi / 200.0) "angle" [radian] [],
    unit steradian ["sr", "steradian", "steradians"] 1.0 "solid_angle" [steradian] []]

/-- Turns and their rate. -/
def rotations : List (UnitEntry Float) :=
  [unit "<rotation>" ["rotation"] (2.0 * pi) "angle" [radian] [],
    unit "<rpm>" ["rpm"] (2.0 * pi / 60.0) "angular_velocity" [radian] [second]]

/-- Units of information. -/
def informations : List (UnitEntry Float) :=
  [unit byte ["B", "byte", "bytes"] 1.0 "information" [byte] [],
    unit "<bit>" ["b", "bit", "bits"] 0.125 "information" [byte] []]

/-- Units of information rate. -/
def informationRates : List (UnitEntry Float) :=
  [unit "<Bps>" ["Bps"] 1.0 "information_rate" [byte] [second],
    unit "<bps>" ["bps"] 0.125 "information_rate" [byte] [second]]

/-- Units of currency. -/
def currencies : List (UnitEntry Float) :=
  [unit dollar ["USD", "dollar"] 1.0 "currency" [dollar] [],
    unit "<cents>" ["cents"] 0.01 "currency" [dollar] []]

/-- Units of luminous intensity, flux and illuminance. -/
def luminosities : List (UnitEntry Float) :=
  [unit candela ["cd", "candela"] 1.0 "luminosity" [candela] [],
    unit "<lumen>" ["lm", "lumen"] 1.0 "luminous_power" [candela, steradian] [],
    unit "<lux>" ["lux"] 1.0 "illuminance" [candela, steradian] squareMeter]

/-- Units of power. -/
def powers : List (UnitEntry Float) :=
  [unit "<watt>" ["W", "watt", "watts"] 1.0 "power" (squareMeter ++ [kilogram]) cubicSecond,
    unit "<volt-ampere>" ["VA", "volt-ampere"] 1.0 "power" (squareMeter ++ [kilogram])
      cubicSecond,
    unit "<volt-ampere-reactive>" ["var", "Var", "VAr", "VAR", "volt-ampere-reactive"] 1.0 "power"
      (squareMeter ++ [kilogram]) cubicSecond,
    unit "<horsepower>" ["hp", "horsepower"] 745.699872 "power" (squareMeter ++ [kilogram])
      cubicSecond]

/-- Units of radiation and radioactivity. -/
def radiations : List (UnitEntry Float) :=
  [unit "<gray>" ["Gy", "gray", "grays"] 1.0 "radiation" squareMeter squareSecond,
    unit "<roentgen>" ["R", "roentgen"] 0.009330 "radiation" squareMeter squareSecond,
    unit "<sievert>" ["Sv", "sievert", "sieverts"] 1.0 "radiation" squareMeter squareSecond,
    unit "<becquerel>" ["Bq", "becquerel", "becquerels"] 1.0 "radiation" [unity] [second],
    unit "<curie>" ["Ci", "curie", "curies"] 3.7e10 "radiation" [unity] [second]]

/-- Units of counts in time. -/
def rates : List (UnitEntry Float) :=
  [unit "<cpm>" ["cpm"] (1.0 / 60.0) "rate" [each] [second],
    unit "<dpm>" ["dpm"] (1.0 / 60.0) "rate" [each] [second],
    unit "<bpm>" ["bpm"] (1.0 / 60.0) "rate" [each] [second]]

/-- Units of resolution and typography. -/
def resolutions : List (UnitEntry Float) :=
  [unit "<dot>" ["dot", "dots"] 1.0 "resolution" [each] [],
    unit "<pixel>" ["pixel", "px"] 1.0 "resolution" [each] [],
    unit "<ppi>" ["ppi"] (1.0 / 0.0254) "resolution" [each] [meter],
    unit "<dpi>" ["dpi"] (1.0 / 0.0254) "typography" [each] [meter]]

/-- Units of counting. -/
def counts : List (UnitEntry Float) :=
  [unit "<cell>" ["cells", "cell"] 1.0 "counting" [each] [],
    unit each ["each"] 1.0 "counting" [each] [],
    unit "<count>" ["count"] 1.0 "counting" [each] [],
    unit "<base-pair>" ["bp", "base-pair"] 1.0 "counting" [each] [],
    unit "<nucleotide>" ["nt", "nucleotide"] 1.0 "counting" [each] [],
    unit "<molecule>" ["molecule", "molecules"] 1.0 "counting" [unity] []]

/-- Numbers with a name. -/
def multipliers : List (UnitEntry Float) :=
  [unit "<dozen>" ["doz", "dz", "dozen"] 12.0 "prefix_only" [each] [],
    unit "<percent>" ["%", "percent"] 0.01 "prefix_only" [unity] [],
    unit "<ppm>" ["ppm"] 1e-6 "prefix_only" [unity] [],
    unit "<ppb>" ["ppb"] 1e-9 "prefix_only" [unity] [],
    unit "<ppt>" ["ppt"] 1e-12 "prefix_only" [unity] [],
    unit "<gross>" ["gross"] 144.0 "prefix_only" [each] []]

/-- Logarithmic units. -/
def logarithmic : List (UnitEntry Float) :=
  [unit decibel ["dB", "decibel", "decibels"] 1.0 "logarithmic" [decibel] []]

/-- All units, in the order in which they are listed. -/
def units : List (UnitEntry Float) :=
  List.flatten [
    unities, lengths, masses, areas, volumes, speeds, accelerations, degrees, temperatures, times,
    pressures, viscosities, substances, concentrations, activities, capacitances, charges,
    currents, conductances, inductances, potentials, resistances, magnetisms, energies, forces,
    frequencies, angles, rotations, informations, informationRates, currencies, luminosities,
    powers, radiations, rates, resolutions, counts, multipliers, logarithmic]

/-- The registry of all these units and prefixes. -/
def registry : Registry Float where
  units := .ofList units
  prefixes := .ofList prefixes
  baseUnits := baseUnits
  watchers := []

end Metrology.Standard
