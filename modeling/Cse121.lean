import Cse121.Lib.Transducer
import Cse121.Lib.Segment
import Cse121.Lib.PulseTrain
import Cse121.Lib.Stretch
import Cse121.Lib.Register
import Cse121.Lib.Printf
import Cse121.Lib.CBuffer
import Cse121.CString
import Cse121.Morse.Code
import Cse121.Morse.Inverse
import Cse121.Morse.Buffer
import Cse121.Morse.Receiver52
import Cse121.Morse.Receiver53
import Cse121.Morse.Bounded
import Cse121.Morse.Conservation
import Cse121.Morse.EdgePairs
import Cse121.Morse.Sender
import Cse121.Morse.Levels
import Cse121.Morse.Waveform
import Cse121.Morse.Text
import Cse121.Morse.RunLaw
import Cse121.Morse.Link53
import Cse121.Morse.Window
import Cse121.Morse.Link52
import Cse121.Morse.Schedules
import Cse121.Lib.Mailbox
import Cse121.Morse.Interrupts
import Cse121.Morse.Noise
import Cse121.Morse.Speed
import Cse121.Morse.Report
import Cse121.AirMouse.Filter
import Cse121.AirMouse.Accel
import Cse121.Lib.HidReport
import Cse121.AirMouse.HidReports
import Cse121.AirMouse.Gatt
import Cse121.AirMouse.Connection
import Cse121.AirMouse.Profile
import Cse121.AirMouse.Setup
import Cse121.AirMouse.Pointer
import Cse121.AirMouse.Imu
import Cse121.Lib.RegisterFile
import Cse121.AirMouse.I2cdev
import Cse121.AirMouse.Sections
import Cse121.AirMouse.Calls
import Cse121.AirMouse.Addresses
import Cse121.AirMouse.Buses
import Cse121.AirMouse.Cleanup
import Cse121.AirMouse.Icm42670
import Cse121.AirMouse.ImuDriver
import Cse121.Display.Lcd
import Cse121.Display.Driver
import Cse121.Display.AppMain
import Cse121.Lib.Dialog
import Cse121.Lib.Ring
import Cse121.Lib.Truncate
import Cse121.Sensors.Crc
import Cse121.Lib.Crc
import Cse121.Sensors.Corruption
import Cse121.Sensors.Shtc3
import Cse121.Sensors.Drivers
import Cse121.Sensors.Detect
import Cse121.Display.Readings
import Cse121.Display.Program
import Cse121.Weather.Http
import Cse121.Weather.Station
import Cse121.Weather.Responses
import Cse121.Weather.Posts
import Cse121.Lib.Uri
import Cse121.Weather.Target
import Cse121.Lib.Utf8
import Cse121.Weather.Utf8
import Cse121.Weather.Server
import Cse121.Lib.Ledger
import Cse121.Weather.Sockets
import Cse121.Weather.Temperature
import Cse121.AirMouse.Advertising
import Cse121.AirMouse.Sweep
