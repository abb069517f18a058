import Mathlib.Data.List.DropRight
import StockQuant.AuthHandlers

/-! The messages behind the mailed links. -/

namespace StockQuant

structure MailSettings where
  appBaseUrl : String := "http://localhost:5173"
  emailVerifyTtlMinutes : Int := 1440
  passwordResetTtlMinutes : Int := 30

/-- The base URL without a trailing slash. -/
def MailSettings.baseUrl (settings : MailSettings) : String :=
  String.ofList (settings.appBaseUrl.toList.rdropWhile (· = '/'))

structure Message where
  subject : String
  text : String
  html : String

def htmlWrap (heading : String) (paragraphs : List String) (buttonLabel link : String) : String :=
  let body := String.join (paragraphs.map fun p => "<p style='margin:0 0 12px'>" ++ p ++ "</p>")
  "<div style=\"font-family:system-ui,-apple-system,'Segoe UI',sans-serif;" ++
  "font-size:15px;line-height:1.6;color:#1f2937;max-width:520px\">" ++
  "<h2 style='margin:0 0 16px;font-size:19px'>" ++ heading ++ "</h2>" ++
  body ++
  "<p style='margin:24px 0'><a href='" ++ link ++ "' " ++
  "style=\"display:inline-block;background:#2563eb;color:#fff;" ++
  "padding:10px 20px;border-radius:6px;text-decoration:none\">" ++
  buttonLabel ++ "</a></p>" ++
  "<p style='margin:0 0 12px;color:#6b7280;font-size:13px'>" ++
  "若按鈕無法點擊，請複製以下連結到瀏覽器開啟：<br>" ++
  "<span style='word-break:break-all'>" ++ link ++ "</span></p>" ++
  "</div>"

def greeted (displayName : Option String) : String :=
  let who := strip (displayName.getD "")
  if who = "" then "你好" else who

section Messages

variable (settings : MailSettings) (token : String) (displayName : Option String)

def verifyEmailMessage : Message :=
  let link := settings.baseUrl ++ "/?verify=" ++ token
  let hours := max 1 (settings.emailVerifyTtlMinutes / 60)
  let who := greeted displayName
  { subject := "請驗證你的信箱 — Stock Quant"
    text :=
      who ++ "，\n\n" ++
      "感謝註冊 Stock Quant。請點擊以下連結驗證你的信箱：\n\n" ++
      link ++ "\n\n" ++
      "這個連結在 " ++ toString hours ++ " 小時後失效。\n" ++
      "如果你沒有註冊過這個服務，請直接忽略這封信。\n"
    html := htmlWrap "請驗證你的信箱"
      [who ++ "，感謝註冊 Stock Quant。",
        "請點擊下方按鈕完成信箱驗證。這個連結在 " ++ toString hours ++ " 小時後失效。",
        "如果你沒有註冊過這個服務，請直接忽略這封信。"]
      "驗證信箱" link }

def passwordResetMessage : Message :=
  let link := settings.baseUrl ++ "/?reset=" ++ token
  let minutes := settings.passwordResetTtlMinutes
  let who := greeted displayName
  { subject := "重設你的密碼 — Stock Quant"
    text :=
      who ++ "，\n\n" ++
      "我們收到了重設 Stock Quant 密碼的請求。請點擊以下連結設定新密碼：\n\n" ++
      link ++ "\n\n" ++
      "這個連結在 " ++ toString minutes ++ " 分鐘後失效，且只能使用一次。\n" ++
      "如果不是你本人操作，請忽略這封信——你的密碼不會有任何變動。\n"
    html := htmlWrap "重設你的密碼"
      [who ++ "，我們收到了重設 Stock Quant 密碼的請求。",
        "請點擊下方按鈕設定新密碼。連結在 " ++ toString minutes ++
          " 分鐘後失效，且只能使用一次。",
        "如果不是你本人操作，請忽略這封信——你的密碼不會有任何變動。"]
      "設定新密碼" link }

end Messages

def Mail.message (settings : MailSettings) (mail : Mail) : Message :=
  match mail.purpose with
  | .verifyEmail => verifyEmailMessage settings mail.raw mail.displayName
  | .passwordReset => passwordResetMessage settings mail.raw mail.displayName

end StockQuant
